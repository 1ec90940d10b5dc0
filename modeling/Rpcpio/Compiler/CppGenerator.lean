import Rpcpio.Library.Lines
import Rpcpio.Stream.RequestTransfer

/-!
# The code generator

What the protoc plugin writes for the services of a file: a header with the method constants, the
stub and the service base of each service, and a source that registers the methods. The texts are
lists of lines, as the source streams them; `writeToStream` puts a text into the buffers of the
output stream.
-/

set_option autoImplicit false

namespace Rpcpio.Compiler

open Rpcpio.Library Rpcpio.Protocol Rpcpio.Stream

/-- `MethodDescriptor`, with the full names of its types. -/
structure MethodDescriptor where
  name : Bytes
  clientStreaming : Bool
  serverStreaming : Bool
  inputType : Bytes
  outputType : Bytes
  deprecated : Bool
  deriving DecidableEq, Repr

/-- `ServiceDescriptor`. -/
structure ServiceDescriptor where
  name : Bytes
  fullName : Bytes
  methods : List MethodDescriptor
  deriving DecidableEq, Repr

/-- `FileDescriptor`. -/
structure FileDescriptor where
  name : Bytes
  package : Bytes
  services : List ServiceDescriptor
  deriving DecidableEq, Repr

/-! ## Names -/

/-- `ProtoBaseName`: up to the last dot. -/
def protoBaseName (filename : Bytes) : Bytes :=
  if filename.contains 46 then ((filename.reverse.dropWhile (· ≠ 46)).drop 1).reverse else filename

/-- The loop of `PackageToNamespace` and `FullCppType`: a dot becomes two colons. -/
def dotsToColons (s : Bytes) : Bytes := s.flatMap fun c => if c = 46 then [58, 58] else [c]

/-- `PackageToNamespace`. -/
def packageToNamespace (package : Bytes) : Bytes :=
  if package.isEmpty then [] else dotsToColons package

/-- `FullCppType`. -/
def fullCppType (fullName : Bytes) : Bytes := text "::" ++ dotsToColons fullName

/-- `MethodPath`. -/
def methodPath (svc : ServiceDescriptor) (m : MethodDescriptor) : Bytes :=
  text "/" ++ svc.fullName ++ text "/" ++ m.name

/-- The branch that `client_streaming` and `server_streaming` select. -/
def MethodDescriptor.kind (m : MethodDescriptor) : HandlerKind :=
  match m.clientStreaming, m.serverStreaming with
  | false, false => .unary
  | false, true => .serverStreaming
  | true, false => .clientStreaming
  | true, true => .bidi

/-! ## The header -/

/-- The template of a method constant. -/
def methodClass : HandlerKind → Bytes
  | .unary => text "UnaryMethod"
  | .serverStreaming => text "ServerStreamingMethod"
  | .clientStreaming => text "ClientStreamingMethod"
  | .bidi => text "BidiStreamingMethod"

/-- A method constant. -/
def methodConstant (svc : ServiceDescriptor) (m : MethodDescriptor) : List Bytes :=
  [text "inline constexpr ::rpcpio::" ++ (methodClass m.kind ++ (text "<" ++
      (fullCppType m.inputType ++ (text ", " ++ (fullCppType m.outputType ++ text ">"))))),
    text "    " ++ (m.name ++ (text "\x7b\"" ++ (methodPath svc m ++ text "\"\x7d;")))]

/-- `[[deprecated]]`. -/
def deprecation (m : MethodDescriptor) : List Bytes :=
  if m.deprecated then [text "    [[deprecated]]"] else []

/-- The reference to a method constant in a call. -/
def constantName (svc : ServiceDescriptor) (m : MethodDescriptor) : Bytes :=
  svc.name ++ (text "Methods::" ++ m.name)

/-- A member function of the stub. -/
def stubMethod (svc : ServiceDescriptor) (m : MethodDescriptor) : List Bytes :=
  let req := fullCppType m.inputType
  let resp := fullCppType m.outputType
  deprecation m ++
    match m.kind with
    | .unary =>
        [text "    ::boost::asio::awaitable<::rpcpio::UnaryResult<" ++ (resp ++ text ">>"),
          text "    " ++ (m.name ++ text "("),
          text "        ::rpcpio::ClientContext& ctx,",
          text "        const " ++ (req ++ text "& request) \x7b"),
          text "        return channel_->UnaryCall(",
          text "            " ++ (constantName svc m ++ text ", ctx, request);"),
          text "    \x7d",
          []]
    | .serverStreaming =>
        [text "    ::boost::asio::awaitable<::rpcpio::ClientReader<" ++ (resp ++ text ">>"),
          text "    " ++ (m.name ++ text "("),
          text "        ::rpcpio::ClientContext& ctx,",
          text "        const " ++ (req ++ text "& request) \x7b"),
          text "        return channel_->ServerStreamingCall(",
          text "            " ++ (constantName svc m ++ text ", ctx, request);"),
          text "    \x7d",
          []]
    | .clientStreaming =>
        [text "    ::boost::asio::awaitable<::rpcpio::ClientWriter<" ++
            (req ++ (text ", " ++ (resp ++ text ">>"))),
          text "    " ++ (m.name ++ text "("),
          text "        ::rpcpio::ClientContext& ctx) \x7b",
          text "        return channel_->ClientStreamingCall(",
          text "            " ++ (constantName svc m ++ text ", ctx);"),
          text "    \x7d",
          []]
    | .bidi =>
        [text "    ::boost::asio::awaitable<::rpcpio::BidiStream<" ++
            (req ++ (text ", " ++ (resp ++ text ">>"))),
          text "    " ++ (m.name ++ text "("),
          text "        ::rpcpio::ClientContext& ctx) \x7b",
          text "        return channel_->BidiStreamingCall(",
          text "            " ++ (constantName svc m ++ text ", ctx);"),
          text "    \x7d",
          []]

/-- A member function of the service base. -/
def serviceMethod (m : MethodDescriptor) : List Bytes :=
  let req := fullCppType m.inputType
  let resp := fullCppType m.outputType
  deprecation m ++
    match m.kind with
    | .unary =>
        [text "    virtual ::boost::asio::awaitable<::rpcpio::StatusOr<" ++ (resp ++ text ">>"),
          text "    " ++ (m.name ++ text "("),
          text "        ::rpcpio::ServerContext& ctx,",
          text "        const " ++ (req ++ text "& request) = 0;"),
          []]
    | .serverStreaming =>
        [text "    virtual ::boost::asio::awaitable<::rpcpio::Status>",
          text "    " ++ (m.name ++ text "("),
          text "        ::rpcpio::ServerContext& ctx,",
          text "        const " ++ (req ++ text "& request,"),
          text "        ::rpcpio::ServerWriter<" ++ (resp ++ text ">& writer) = 0;"),
          []]
    | .clientStreaming =>
        [text "    virtual ::boost::asio::awaitable<::rpcpio::StatusOr<" ++ (resp ++ text ">>"),
          text "    " ++ (m.name ++ text "("),
          text "        ::rpcpio::ServerContext& ctx,",
          text "        ::rpcpio::ServerReader<" ++ (req ++ text ">& reader) = 0;"),
          []]
    | .bidi =>
        [text "    virtual ::boost::asio::awaitable<::rpcpio::Status>",
          text "    " ++ (m.name ++ text "("),
          text "        ::rpcpio::ServerContext& ctx,",
          text "        ::rpcpio::ServerReader<" ++ (req ++ text ">& reader,"),
          text "        ::rpcpio::ServerWriter<" ++ (resp ++ text ">& writer) = 0;"),
          []]

/-- The part of the header for a service. -/
def serviceHeader (svc : ServiceDescriptor) : List Bytes :=
  [text "// Service: " ++ svc.fullName,
    text "namespace " ++ (svc.name ++ text "Methods \x7b")] ++
  svc.methods.flatMap (methodConstant svc) ++
  [text "\x7d // namespace " ++ (svc.name ++ text "Methods"),
    [],
    text "class " ++ (svc.name ++ text "Stub \x7b"),
    text "public:",
    text "    explicit " ++ (svc.name ++ text "Stub("),
    text "        std::shared_ptr<::rpcpio::Channel> channel)",
    text "        : channel_(std::move(channel)) \x7b\x7d",
    []] ++
  svc.methods.flatMap (stubMethod svc) ++
  [text "private:",
    text "    std::shared_ptr<::rpcpio::Channel> channel_;",
    text "\x7d;",
    [],
    text "class " ++ (svc.name ++ text "Service \x7b"),
    text "public:",
    text "    virtual ~" ++ (svc.name ++ text "Service() = default;"),
    []] ++
  svc.methods.flatMap serviceMethod ++
  [text "    void Register(::rpcpio::Server& server);",
    text "\x7d;",
    []]

/-- The lines around the services, if there is a package. -/
def openNamespace (file : FileDescriptor) : List Bytes :=
  let ns := packageToNamespace file.package
  if ns.isEmpty then [] else [text "namespace " ++ (ns ++ text " \x7b"), []]

def closeNamespace (file : FileDescriptor) : List Bytes :=
  let ns := packageToNamespace file.package
  if ns.isEmpty then [] else [text "\x7d // namespace " ++ ns]

/-- The lines of `GenerateHeader`. -/
def headerLines (file : FileDescriptor) : List Bytes :=
  [text "// Generated by rpcpio_cpp_plugin.  DO NOT EDIT.",
    text "// Source: " ++ file.name,
    [],
    text "#pragma once",
    [],
    text "#include \"rpcpio/channel.h\"",
    text "#include \"rpcpio/server.h\"",
    text "#include \"rpcpio/status.h\"",
    text "#include \"rpcpio/unary_method.h\"",
    text "#include \"rpcpio/streaming_method.h\"",
    text "#include \"rpcpio/server_reader.h\"",
    text "#include \"rpcpio/server_writer.h\"",
    text "#include \"rpcpio/client_reader.h\"",
    text "#include \"rpcpio/client_writer.h\"",
    text "#include \"rpcpio/bidi_stream.h\"",
    text "#include \"" ++ (protoBaseName file.name ++ text ".pb.h\""),
    []] ++
  openNamespace file ++ file.services.flatMap serviceHeader ++ closeNamespace file

/-- `GenerateHeader`. -/
def generateHeader (file : FileDescriptor) : Bytes := unlines 10 (headerLines file)

/-! ## The source -/

/-- A registration. -/
def registration (svc : ServiceDescriptor) (m : MethodDescriptor) : List Bytes :=
  let req := fullCppType m.inputType
  let resp := fullCppType m.outputType
  match m.kind with
  | .unary =>
      [text "    server.RegisterUnary(",
        text "        " ++ (constantName svc m ++ text ","),
        text "        [this](::rpcpio::ServerContext& ctx,",
        text "               const " ++ (req ++ text "& req)"),
        text "            -> ::boost::asio::awaitable<::rpcpio::StatusOr<" ++
          (resp ++ text ">> \x7b"),
        text "            return this->" ++ (m.name ++ text "(ctx, req);"),
        text "        \x7d);"]
  | .serverStreaming =>
      [text "    server.RegisterServerStreaming(",
        text "        " ++ (constantName svc m ++ text ","),
        text "        [this](::rpcpio::ServerContext& ctx,",
        text "               const " ++ (req ++ text "& req,"),
        text "               ::rpcpio::ServerWriter<" ++ (resp ++ text ">& writer)"),
        text "            -> ::boost::asio::awaitable<::rpcpio::Status> \x7b",
        text "            return this->" ++ (m.name ++ text "(ctx, req, writer);"),
        text "        \x7d);"]
  | .clientStreaming =>
      [text "    server.RegisterClientStreaming(",
        text "        " ++ (constantName svc m ++ text ","),
        text "        [this](::rpcpio::ServerContext& ctx,",
        text "               ::rpcpio::ServerReader<" ++ (req ++ text ">& reader)"),
        text "            -> ::boost::asio::awaitable<::rpcpio::StatusOr<" ++
          (resp ++ text ">> \x7b"),
        text "            return this->" ++ (m.name ++ text "(ctx, reader);"),
        text "        \x7d);"]
  | .bidi =>
      [text "    server.RegisterBidi(",
        text "        " ++ (constantName svc m ++ text ","),
        text "        [this](::rpcpio::ServerContext& ctx,",
        text "               ::rpcpio::ServerReader<" ++ (req ++ text ">& reader,"),
        text "               ::rpcpio::ServerWriter<" ++ (resp ++ text ">& writer)"),
        text "            -> ::boost::asio::awaitable<::rpcpio::Status> \x7b",
        text "            return this->" ++ (m.name ++ text "(ctx, reader, writer);"),
        text "        \x7d);"]

/-- The part of the source for a service. -/
def serviceSource (svc : ServiceDescriptor) : List Bytes :=
  [text "void " ++ (svc.name ++ text "Service::Register(::rpcpio::Server& server) \x7b")] ++
  svc.methods.flatMap (registration svc) ++ [text "\x7d", []]

/-- The lines of `GenerateSource`. -/
def sourceLines (file : FileDescriptor) : List Bytes :=
  [text "// Generated by rpcpio_cpp_plugin.  DO NOT EDIT.",
    text "// Source: " ++ file.name,
    [],
    text "#include \"" ++ (protoBaseName file.name ++ text ".rpcpio.pb.h\""),
    []] ++
  openNamespace file ++ file.services.flatMap serviceSource ++ closeNamespace file

/-- `GenerateSource`. -/
def generateSource (file : FileDescriptor) : Bytes := unlines 10 (sourceLines file)

/-! ## The files -/

/-- `BackUp`: the last bytes of the stream are taken back. -/
def backUp (file : Bytes) (count : Nat) : Bytes := file.take (file.length - count)

/-- The loop of `write_to_stream`, over the sizes of the buffers that `Next` hands out before it
fails, from what is left of the content and what the stream holds: the result, and the file. -/
def writeLoop : List Nat → Bytes → Bytes → Bool × Bytes
  | [], src, file => (src.isEmpty, file)
  | size :: sizes, src, file =>
      if src.isEmpty then (true, file)
      else
        let n := min src.length size
        -- `Next` extends the stream by the buffer, and `memcpy` fills the front of it
        let filled := file ++ (src.take n ++ List.replicate (size - n) 0)
        writeLoop sizes (src.drop n) (if n < size then backUp filled (size - n) else filled)

/-- `write_to_stream`. -/
def writeToStream (content : Bytes) (sizes : List Nat) : Bool × Bytes := writeLoop sizes content []

/-- `CppGenerator::Generate`, with the buffers of the two streams: the result, and the files that
were opened, with their contents. -/
def generate (file : FileDescriptor) (headerSizes sourceSizes : List Nat) :
    Bool × List (Bytes × Bytes) :=
  if file.services.isEmpty then (true, [])
  else
    let base := protoBaseName file.name
    let header := writeToStream (generateHeader file) headerSizes
    let opened := (base ++ text ".rpcpio.pb.h", header.2)
    if !header.1 then (false, [opened])
    else
      let source := writeToStream (generateSource file) sourceSizes
      (source.1, [opened, (base ++ text ".rpcpio.pb.cc", source.2)])

/-- What is left of a buffer is taken back. -/
theorem backUp_filled (file src : Bytes) (size : Nat) :
    (if min src.length size < size then
      backUp (file ++ (src.take (min src.length size) ++
        List.replicate (size - min src.length size) 0)) (size - min src.length size)
      else file ++ (src.take (min src.length size) ++
        List.replicate (size - min src.length size) 0)) = file ++ src.take size := by
  rcases Nat.lt_or_ge src.length size with h | h
  · rw [Nat.min_eq_left (Nat.le_of_lt h), if_pos h, backUp, ← List.append_assoc,
      List.take_length, List.take_of_length_le (Nat.le_of_lt h)]
    have hlen : (file ++ src).length = (file ++ src ++
        List.replicate (size - src.length) 0).length - (size - src.length) := by
      simp only [List.length_append, List.length_replicate]
      omega
    exact List.take_left' hlen
  · rw [Nat.min_eq_right h, if_neg (Nat.lt_irrefl size), Nat.sub_self]
    simp

/-- The loop writes as much as the buffers hold. -/
theorem writeLoop_eq : ∀ (sizes : List Nat) (src file : Bytes),
    writeLoop sizes src file = (decide (src.length ≤ sizes.sum), file ++ src.take sizes.sum)
  | [], src, file => by cases src <;> simp [writeLoop]
  | size :: sizes, src, file => by
      rw [writeLoop]
      split
      · rename_i hnil
        simp [List.isEmpty_iff.1 hnil]
      · dsimp only
        have hdrop : src.drop (min src.length size) = src.drop size := by
          rcases Nat.le_total size src.length with h | h
          · rw [Nat.min_eq_right h]
          · rw [Nat.min_eq_left h, List.drop_length, List.drop_eq_nil_of_le h]
        rw [backUp_filled, hdrop, writeLoop_eq sizes, List.append_assoc, ← List.take_add,
          List.length_drop, List.sum_cons, decide_eq_decide.2 Nat.sub_le_iff_le_add']

/-- **A text is written as a whole, whatever the buffers**, or the stream was too small for it. -/
theorem writeToStream_eq (content : Bytes) (sizes : List Nat) :
    writeToStream content sizes =
      (decide (content.length ≤ sizes.sum), content.take sizes.sum) :=
  writeLoop_eq sizes content []

end Rpcpio.Compiler

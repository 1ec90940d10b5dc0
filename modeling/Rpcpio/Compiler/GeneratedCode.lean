import Rpcpio.Compiler.CppGenerator

/-!
# What the generated code says

A reader of the generated texts: the method constants and the calls of the stubs in the header, the
registrations in the source. For names that are identifiers it reads back exactly the methods of the
file (`readHeader_generateHeader`, `readSource_generateSource`).
-/

set_option autoImplicit false

namespace Rpcpio.Compiler

open Rpcpio.Library Rpcpio.Protocol Rpcpio.Stream

/-! ## The reader -/

/-- A method constant: its namespace, its name, the kind of its template, and its path. -/
structure MethodConstant where
  space : Bytes
  name : Bytes
  kind : HandlerKind
  path : Bytes
  deriving DecidableEq, Repr

/-- A member function of a class, and the method constant that it passes to a function of some
kind: in a stub the call of the channel, in a service the registration. -/
structure MethodUse where
  owner : Bytes
  member : Bytes
  kind : HandlerKind
  space : Bytes
  constant : Bytes
  deriving DecidableEq, Repr

/-- A character of an identifier. -/
def isLetter (c : UInt8) : Bool :=
  (48 ≤ c && c ≤ 57) || (65 ≤ c && c ≤ 90) || (97 ≤ c && c ≤ 122) || c = 95

/-- The kind that a line names with its first word. -/
def lookupKind (table : List (Bytes × HandlerKind)) (l : Bytes) : Option HandlerKind :=
  (table.find? fun e => e.1 = l.takeWhile isLetter).map (·.2)

def constantKinds : List (Bytes × HandlerKind) :=
  [(text "UnaryMethod", .unary), (text "ServerStreamingMethod", .serverStreaming),
    (text "ClientStreamingMethod", .clientStreaming), (text "BidiStreamingMethod", .bidi)]

def callKinds : List (Bytes × HandlerKind) :=
  [(text "UnaryCall", .unary), (text "ServerStreamingCall", .serverStreaming),
    (text "ClientStreamingCall", .clientStreaming), (text "BidiStreamingCall", .bidi)]

def registerKinds : List (Bytes × HandlerKind) :=
  [(text "RegisterUnary", .unary), (text "RegisterServerStreaming", .serverStreaming),
    (text "RegisterClientStreaming", .clientStreaming), (text "RegisterBidi", .bidi)]

/-- `space::constant`, behind blanks. -/
def readReference (l : Bytes) : Bytes × Bytes :=
  let l := l.dropWhile (· = 32)
  (l.takeWhile isLetter, ((l.dropWhile isLetter).drop 2).takeWhile isLetter)

/-- The name and the string of a constant, behind blanks. -/
def readConstant (l : Bytes) : Bytes × Bytes :=
  let l := l.dropWhile (· = 32)
  (l.takeWhile isLetter, ((l.dropWhile isLetter).drop 2).takeWhile (· ≠ 34))

/-- What the line behind the one that was read holds. -/
inductive Expectation where
  | nothing
  | constant (k : HandlerKind)
  | call (k : HandlerKind)
  deriving DecidableEq, Repr

/-- Where the reader of the header is: the namespace or class that was opened last, the member
function that was begun last, what comes next, and what was read. -/
structure HeaderScan where
  scope : Bytes
  member : Bytes
  expect : Expectation
  constants : List MethodConstant
  calls : List MethodUse
  deriving DecidableEq, Repr

namespace HeaderScan

/-- A line that is not expected by the one before it. -/
def readFree (s : HeaderScan) (l : Bytes) : HeaderScan :=
  match stripPrefix (text "namespace ") l with
  | some rest => { s with scope := rest.takeWhile isLetter }
  | none =>
      match stripPrefix (text "class ") l with
      | some rest => { s with scope := rest.takeWhile isLetter }
      | none =>
          match stripPrefix (text "inline constexpr ::rpcpio::") l with
          | some rest =>
              { s with expect := ((lookupKind constantKinds rest).map .constant).getD .nothing }
          | none =>
              match stripPrefix (text "        return channel_->") l with
              | some rest =>
                  { s with expect := ((lookupKind callKinds rest).map .call).getD .nothing }
              | none =>
                  match stripPrefix (text "    ") l with
                  | some rest =>
                      if rest.dropWhile isLetter = [40] then
                        { s with member := rest.takeWhile isLetter }
                      else s
                  | none => s

/-- A line of the header. -/
def readLine (s : HeaderScan) (l : Bytes) : HeaderScan :=
  match s.expect with
  | .nothing => s.readFree l
  | .constant k =>
      { s with
        expect := .nothing
        constants := s.constants ++ [⟨s.scope, (readConstant l).1, k, (readConstant l).2⟩] }
  | .call k =>
      { s with
        expect := .nothing
        calls := s.calls ++ [⟨s.scope, s.member, k, (readReference l).1, (readReference l).2⟩] }

end HeaderScan

/-- The constants and the calls of the stubs in a header. -/
def readHeader (header : Bytes) : List MethodConstant × List MethodUse :=
  let s := (lines 10 header).foldl HeaderScan.readLine ⟨[], [], .nothing, [], []⟩
  (s.constants, s.calls)

/-- Where a registration stands: in front of it, at its constant, or in its function. -/
inductive RegistrationPhase where
  | outside
  | constant (k : HandlerKind)
  | handler (k : HandlerKind) (space constant : Bytes)
  deriving DecidableEq, Repr

/-- Where the reader of the source is: the class whose `Register` it is in, and what was read. -/
structure SourceScan where
  scope : Bytes
  phase : RegistrationPhase
  registrations : List MethodUse
  deriving DecidableEq, Repr

namespace SourceScan

/-- A line of the source. -/
def readLine (s : SourceScan) (l : Bytes) : SourceScan :=
  match s.phase with
  | .outside =>
      match stripPrefix (text "void ") l with
      | some rest => { s with scope := rest.takeWhile isLetter }
      | none =>
          match stripPrefix (text "    server.") l with
          | some rest =>
              { s with phase := ((lookupKind registerKinds rest).map .constant).getD .outside }
          | none => s
  | .constant k =>
      { s with phase := .handler k (readReference l).1 (readReference l).2 }
  | .handler k space constant =>
      match stripPrefix (text "            return this->") l with
      | some rest =>
          { s with
            phase := .outside
            registrations :=
              s.registrations ++ [⟨s.scope, rest.takeWhile isLetter, k, space, constant⟩] }
      | none => s

end SourceScan

/-- The registrations of a source. -/
def readSource (source : Bytes) : List MethodUse :=
  ((lines 10 source).foldl SourceScan.readLine ⟨[], .outside, []⟩).registrations

/-! ## What the file asks for -/

/-- The constants of a service. -/
def ServiceDescriptor.constants (svc : ServiceDescriptor) : List MethodConstant :=
  svc.methods.map fun m => ⟨svc.name ++ text "Methods", m.name, m.kind, methodPath svc m⟩

/-- The methods of a class of a service, each with its own constant. -/
def ServiceDescriptor.uses (svc : ServiceDescriptor) (suffix : Bytes) : List MethodUse :=
  svc.methods.map fun m =>
    ⟨svc.name ++ suffix, m.name, m.kind, svc.name ++ text "Methods", m.name⟩

/-- An identifier. -/
def IsIdentifier (w : Bytes) : Prop := w ≠ [] ∧ ∀ c ∈ w, isLetter c = true

/-- No line break and no quote. -/
def IsPlain (w : Bytes) : Prop := (10 : UInt8) ∉ w ∧ (34 : UInt8) ∉ w

instance (w : Bytes) : Decidable (IsIdentifier w) :=
  haveI : Decidable (∀ c ∈ w, isLetter c = true) := List.decidableBAll _ w
  inferInstanceAs (Decidable (w ≠ [] ∧ ∀ c ∈ w, isLetter c = true))

instance (w : Bytes) : Decidable (IsPlain w) :=
  inferInstanceAs (Decidable ((10 : UInt8) ∉ w ∧ (34 : UInt8) ∉ w))

/-- The names that protoc accepts. -/
structure FileDescriptor.WellNamed (file : FileDescriptor) : Prop where
  source : IsPlain file.name
  package : IsPlain file.package
  services : ∀ svc ∈ file.services, IsIdentifier svc.name ∧ IsPlain svc.fullName
  methods : ∀ svc ∈ file.services, ∀ m ∈ svc.methods,
    IsIdentifier m.name ∧ IsPlain m.inputType ∧ IsPlain m.outputType

/-! ## Lines without a meaning -/

/-- A first part of a line with which the reader of the header passes over it. -/
def inert (q : Bytes) : Bool :=
  clash (text "namespace ") q && clash (text "class ") q &&
    clash (text "inline constexpr ::rpcpio::") q && clash (text "        return channel_->") q &&
    (clash (text "    ") q || ((q.drop 4).dropWhile isLetter).head?.any (· ≠ 40))

section

variable {scope member : Bytes} {cs : List MethodConstant} {us : List MethodUse}

theorem readFree_inert {q : Bytes} (h : inert q = true) (x : Bytes) (s : HeaderScan) :
    s.readFree (q ++ x) = s := by
  simp only [inert, Bool.and_eq_true, Bool.or_eq_true] at h
  obtain ⟨⟨⟨⟨hn, hc⟩, hi⟩, hr⟩, hm⟩ := h
  rw [HeaderScan.readFree, stripPrefix_clash hn, stripPrefix_clash hc, stripPrefix_clash hi,
    stripPrefix_clash hr]
  dsimp only
  rcases hm with hm | hm
  · rw [stripPrefix_clash hm]
  · cases hstrip : stripPrefix (text "    ") (q ++ x) with
    | none => rfl
    | some rest =>
        -- the first part of the line is longer than the blanks, and leaves the word
        have hrest : rest = (q ++ x).drop 4 := eq_drop_of_stripPrefix hstrip
        cases hw : (q.drop 4).dropWhile isLetter with
        | nil => simp [hw] at hm
        | cons d r =>
            have hlong : 4 ≤ q.length := by
              by_contra hshort
              rw [List.drop_eq_nil_of_le (by omega)] at hw
              cases hw
            rw [hrest, List.drop_append_of_le_length hlong]
            dsimp only
            rw [dropWhile_append_cons hw, if_neg]
            intro heq
            obtain ⟨rfl, _⟩ := List.cons.inj heq
            simp [hw] at hm

/-- A line that the reader passes over. -/
theorem readLine_inert {q : Bytes} (h : inert q = true) (x : Bytes) :
    (⟨scope, member, .nothing, cs, us⟩ : HeaderScan).readLine (q ++ x) =
      ⟨scope, member, .nothing, cs, us⟩ :=
  readFree_inert h x _

theorem readLine_literal {q : Bytes} (h : inert q = true) :
    (⟨scope, member, .nothing, cs, us⟩ : HeaderScan).readLine q =
      ⟨scope, member, .nothing, cs, us⟩ := by
  rw [← List.append_nil q]
  exact readLine_inert h []

theorem readLine_nil : (⟨scope, member, .nothing, cs, us⟩ : HeaderScan).readLine [] =
    ⟨scope, member, .nothing, cs, us⟩ := rfl

/-! ## Lines with a meaning -/

theorem letters_append {v w : Bytes} (hv : ∀ c ∈ v, isLetter c = true)
    (hw : ∀ c ∈ w, isLetter c = true) : ∀ c ∈ v ++ w, isLetter c = true :=
  fun c hc => (List.mem_append.1 hc).elim (hv c) (hw c)

/-- A namespace or a class of a service is opened. -/
theorem readLine_namespace {w : Bytes} (hw : ∀ c ∈ w, isLetter c = true) (suffix x : Bytes)
    {q : Bytes} (hsuffix : ∀ c ∈ suffix, isLetter c = true) (hq : q = suffix ++ 32 :: x) :
    (⟨scope, member, .nothing, cs, us⟩ : HeaderScan).readLine (text "namespace " ++ (w ++ q)) =
      ⟨w ++ suffix, member, .nothing, cs, us⟩ := by
  rw [hq, ← List.append_assoc w]
  simp only [HeaderScan.readLine, HeaderScan.readFree, stripPrefix_append,
    takeWhile_word (letters_append hw hsuffix) (show isLetter 32 = false from rfl)]

theorem readLine_class {w : Bytes} (hw : ∀ c ∈ w, isLetter c = true) (suffix x : Bytes)
    {q : Bytes} (hsuffix : ∀ c ∈ suffix, isLetter c = true) (hq : q = suffix ++ 32 :: x) :
    (⟨scope, member, .nothing, cs, us⟩ : HeaderScan).readLine (text "class " ++ (w ++ q)) =
      ⟨w ++ suffix, member, .nothing, cs, us⟩ := by
  rw [hq, ← List.append_assoc w]
  simp only [HeaderScan.readLine, HeaderScan.readFree, stripPrefix_append,
    stripPrefix_clash (show clash (text "namespace ") (text "class ") = true by decide),
    takeWhile_word (letters_append hw hsuffix) (show isLetter 32 = false from rfl)]

/-- A member function is begun. -/
theorem readLine_member {w : Bytes} (hw : IsIdentifier w) :
    (⟨scope, member, .nothing, cs, us⟩ : HeaderScan).readLine (text "    " ++ (w ++ text "(")) =
      ⟨scope, w, .nothing, cs, us⟩ := by
  have hopen : w ++ text "(" = w ++ 40 :: [] := rfl
  have hreturn : stripPrefix (text "        return channel_->") (text "    " ++ (w ++ text "(")) =
      none := by
    obtain ⟨c, w', rfl⟩ := List.exists_cons_of_ne_nil hw.1
    have hblank : c ≠ 32 := fun h => by
      have hc := hw.2 c List.mem_cons_self
      rw [h] at hc
      cases hc
    exact stripPrefix_clash (q := text "    " ++ [c]) (by simp [clash, text, hblank.symm])
      (w' ++ text "(")
  simp only [HeaderScan.readLine, HeaderScan.readFree, hreturn, stripPrefix_append,
    stripPrefix_clash (show clash (text "namespace ") (text "    ") = true by decide),
    stripPrefix_clash (show clash (text "class ") (text "    ") = true by decide),
    stripPrefix_clash (show clash (text "inline constexpr ::rpcpio::") (text "    ") = true by
      decide)]
  rw [hopen, dropWhile_word hw.2 (show isLetter 40 = false from rfl),
    takeWhile_word hw.2 (show isLetter 40 = false from rfl), if_pos rfl]

/-- Blanks in front of an identifier. -/
theorem dropWhile_blanks (k : Nat) {w : Bytes} (hw : IsIdentifier w) (rest : Bytes) :
    (List.replicate k 32 ++ (w ++ rest)).dropWhile (· = 32) = w ++ rest := by
  induction k with
  | zero =>
      obtain ⟨c, w', rfl⟩ := List.exists_cons_of_ne_nil hw.1
      have hblank : c ≠ 32 := fun h => by
        have hc := hw.2 c List.mem_cons_self
        rw [h] at hc
        cases hc
      simp [hblank]
  | succ k ih =>
      rw [List.replicate_succ, List.cons_append, List.dropWhile_cons, if_pos (by simp), ih]

/-- The reference to a method constant is read back. -/
theorem readReference_constantName (k : Nat) {svc : ServiceDescriptor} {m : MethodDescriptor}
    (hs : IsIdentifier svc.name) (hm : IsIdentifier m.name) (x : Bytes) :
    readReference (List.replicate k 32 ++ (constantName svc m ++ 44 :: x)) =
      (svc.name ++ text "Methods", m.name) := by
  have hspace : IsIdentifier (svc.name ++ text "Methods") :=
    ⟨by simp [hs.1], letters_append hs.2 (List.all_eq_true.1 (by decide))⟩
  have hsplit : constantName svc m ++ 44 :: x =
      (svc.name ++ text "Methods") ++ 58 :: 58 :: (m.name ++ 44 :: x) := by
    simp [constantName, text]
  rw [readReference, hsplit, dropWhile_blanks k hspace]
  rw [takeWhile_word hspace.2 (show isLetter 58 = false from rfl),
    dropWhile_word hspace.2 (show isLetter 58 = false from rfl)]
  simp only [List.drop_succ_cons, List.drop_zero,
    takeWhile_word hm.2 (show isLetter 44 = false from rfl)]

/-- A method constant is read back. -/
theorem readConstant_line {w path : Bytes} (hw : IsIdentifier w) (hpath : (34 : UInt8) ∉ path)
    (x : Bytes) :
    readConstant (List.replicate 4 32 ++ (w ++ 123 :: 34 :: (path ++ 34 :: x))) = (w, path) := by
  have hquote : ∀ c ∈ path, (decide (c ≠ 34)) = true := fun c hc => by
    simp only [ne_eq, decide_eq_true_eq]
    rintro rfl
    exact hpath hc
  rw [readConstant, dropWhile_blanks 4 hw]
  rw [takeWhile_word hw.2 (show isLetter 123 = false from rfl),
    dropWhile_word hw.2 (show isLetter 123 = false from rfl)]
  simp only [List.drop_succ_cons, List.drop_zero]
  rw [takeWhile_word hquote (show decide ((34 : UInt8) ≠ 34) = false from rfl)]

/-! ## The header -/

/-- The two lines of a method constant. -/
theorem read_methodConstant (svc : ServiceDescriptor) {m : MethodDescriptor}
    (hm : IsIdentifier m.name) (hpath : (34 : UInt8) ∉ methodPath svc m) :
    (methodConstant svc m).foldl HeaderScan.readLine ⟨scope, member, .nothing, cs, us⟩ =
      ⟨scope, member, .nothing, cs ++ [⟨scope, m.name, m.kind, methodPath svc m⟩], us⟩ := by
  have hkind : ∀ x, lookupKind constantKinds (methodClass m.kind ++ (text "<" ++ x)) =
      some m.kind := by
    intro x
    cases m.kind <;> rfl
  have hconstant := readConstant_line hm hpath (text "\x7d;")
  simp only [methodConstant, List.foldl_cons, List.foldl_nil, HeaderScan.readLine,
    HeaderScan.readFree, stripPrefix_append, hkind, Option.map_some, Option.getD_some,
    stripPrefix_clash (show clash (text "namespace ") (text "inline constexpr ::rpcpio::") = true by
      decide),
    stripPrefix_clash (show clash (text "class ") (text "inline constexpr ::rpcpio::") = true by
      decide)]
  rw [show text "    " ++ (m.name ++ (text "\x7b\"" ++ (methodPath svc m ++ text "\"\x7d;"))) =
    List.replicate 4 32 ++ (m.name ++ 123 :: 34 :: (methodPath svc m ++ 34 :: text "\x7d;")) from
      rfl, hconstant]

/-- The call of the channel in a stub. -/
theorem readLine_call {svc : ServiceDescriptor} {m : MethodDescriptor} (hs : IsIdentifier svc.name)
    (hm : IsIdentifier m.name) {k : HandlerKind} (q x : Bytes) {l l' : Bytes}
    (hl : l = text "        return channel_->" ++ q)
    (hl' : l' = text "            " ++ (constantName svc m ++ 44 :: x))
    (hk : lookupKind callKinds q = some k) :
    ((⟨scope, member, .nothing, cs, us⟩ : HeaderScan).readLine l).readLine l' =
      ⟨scope, member, .nothing, cs,
        us ++ [⟨scope, member, k, svc.name ++ text "Methods", m.name⟩]⟩ := by
  have href : readReference l' = (svc.name ++ text "Methods", m.name) := by
    rw [hl']
    exact readReference_constantName 12 hs hm x
  rw [hl]
  simp only [HeaderScan.readLine, HeaderScan.readFree, stripPrefix_append, hk, Option.map_some,
    Option.getD_some, href,
    stripPrefix_clash (show clash (text "namespace ") (text "        return channel_->") = true by
      decide),
    stripPrefix_clash (show clash (text "class ") (text "        return channel_->") = true by
      decide),
    stripPrefix_clash (show clash (text "inline constexpr ::rpcpio::")
      (text "        return channel_->") = true by decide)]

theorem read_deprecation (m : MethodDescriptor) :
    (deprecation m).foldl HeaderScan.readLine ⟨scope, member, .nothing, cs, us⟩ =
      ⟨scope, member, .nothing, cs, us⟩ := by
  rw [deprecation]
  split
  · rw [List.foldl_cons, readLine_literal (by decide), List.foldl_nil]
  · rfl

/-- A member function of the stub calls the channel with its own constant. -/
theorem read_stubMethod {svc : ServiceDescriptor} {m : MethodDescriptor}
    (hs : IsIdentifier svc.name) (hm : IsIdentifier m.name) :
    (stubMethod svc m).foldl HeaderScan.readLine ⟨scope, member, .nothing, cs, us⟩ =
      ⟨scope, m.name, .nothing, cs,
        us ++ [⟨scope, m.name, m.kind, svc.name ++ text "Methods", m.name⟩]⟩ := by
  rw [stubMethod, List.foldl_append, read_deprecation]
  cases hk : m.kind with
  | unary =>
      simp only [List.foldl_cons, List.foldl_nil]
      rw [readLine_inert (by decide), readLine_member hm, readLine_literal (by decide),
        readLine_inert (by decide),
        readLine_call hs hm (text "UnaryCall(") (text " ctx, request);") (by rfl) (by rfl) (by rfl),
        readLine_literal (by decide), readLine_nil]
  | serverStreaming =>
      simp only [List.foldl_cons, List.foldl_nil]
      rw [readLine_inert (by decide), readLine_member hm, readLine_literal (by decide),
        readLine_inert (by decide), readLine_call hs hm (text "ServerStreamingCall(")
          (text " ctx, request);") (by rfl) (by rfl) (by rfl),
        readLine_literal (by decide), readLine_nil]
  | clientStreaming =>
      simp only [List.foldl_cons, List.foldl_nil]
      rw [readLine_inert (by decide), readLine_member hm, readLine_literal (by decide),
        readLine_call hs hm (text "ClientStreamingCall(") (text " ctx);") (by rfl) (by rfl)
          (by rfl), readLine_literal (by decide), readLine_nil]
  | bidi =>
      simp only [List.foldl_cons, List.foldl_nil]
      rw [readLine_inert (by decide), readLine_member hm, readLine_literal (by decide),
        readLine_call hs hm (text "BidiStreamingCall(") (text " ctx);") (by rfl) (by rfl) (by rfl),
        readLine_literal (by decide), readLine_nil]

/-- A member function of the service base begins a member. -/
theorem read_serviceMethod {m : MethodDescriptor} (hm : IsIdentifier m.name) :
    (serviceMethod m).foldl HeaderScan.readLine ⟨scope, member, .nothing, cs, us⟩ =
      ⟨scope, m.name, .nothing, cs, us⟩ := by
  rw [serviceMethod, List.foldl_append, read_deprecation]
  cases hk : m.kind with
  | unary | clientStreaming =>
      simp only [List.foldl_cons, List.foldl_nil]
      rw [readLine_inert (by decide), readLine_member hm, readLine_literal (by decide),
        readLine_inert (by decide), readLine_nil]
  | serverStreaming | bidi =>
      simp only [List.foldl_cons, List.foldl_nil]
      rw [readLine_literal (by decide), readLine_member hm, readLine_literal (by decide),
        readLine_inert (by decide), readLine_inert (by decide), readLine_nil]

/-- The constants of the methods of a namespace. -/
theorem read_constants (svc : ServiceDescriptor) :
    ∀ {ms : List MethodDescriptor} {cs : List MethodConstant},
      (∀ m ∈ ms, IsIdentifier m.name ∧ (34 : UInt8) ∉ methodPath svc m) →
      (ms.flatMap (methodConstant svc)).foldl HeaderScan.readLine
          ⟨scope, member, .nothing, cs, us⟩ =
        ⟨scope, member, .nothing,
          cs ++ ms.map fun m => ⟨scope, m.name, m.kind, methodPath svc m⟩, us⟩
  | [], cs, _ => by simp
  | m :: ms, cs, h => by
      obtain ⟨hm, hpath⟩ := h m List.mem_cons_self
      rw [List.flatMap_cons, List.foldl_append, read_methodConstant svc hm hpath,
        read_constants svc fun m' hm' => h m' (List.mem_cons_of_mem m hm')]
      simp

/-- The member functions of a stub. -/
theorem read_stub {svc : ServiceDescriptor} (hs : IsIdentifier svc.name) (scope : Bytes)
    (cs : List MethodConstant) :
    ∀ (ms : List MethodDescriptor) (member : Bytes) (us : List MethodUse),
      (∀ m ∈ ms, IsIdentifier m.name) → ∃ last,
      (ms.flatMap (stubMethod svc)).foldl HeaderScan.readLine ⟨scope, member, .nothing, cs, us⟩ =
        ⟨scope, last, .nothing, cs,
          us ++ ms.map fun m => ⟨scope, m.name, m.kind, svc.name ++ text "Methods", m.name⟩⟩
  | [], member, us, _ => ⟨member, by simp⟩
  | m :: ms, member, us, h => by
      obtain ⟨last, hlast⟩ := read_stub hs scope cs ms m.name
        (us ++ [⟨scope, m.name, m.kind, svc.name ++ text "Methods", m.name⟩])
        fun m' hm' => h m' (List.mem_cons_of_mem m hm')
      refine ⟨last, ?_⟩
      rw [List.flatMap_cons, List.foldl_append, read_stubMethod hs (h m List.mem_cons_self), hlast]
      simp

/-- The member functions of a service base. -/
theorem read_service (scope : Bytes) (cs : List MethodConstant) (us : List MethodUse) :
    ∀ (ms : List MethodDescriptor) (member : Bytes),
      (∀ m ∈ ms, IsIdentifier m.name) → ∃ last,
      (ms.flatMap serviceMethod).foldl HeaderScan.readLine ⟨scope, member, .nothing, cs, us⟩ =
        ⟨scope, last, .nothing, cs, us⟩
  | [], member, _ => ⟨member, rfl⟩
  | m :: ms, member, h => by
      obtain ⟨last, hlast⟩ := read_service scope cs us ms m.name
        fun m' hm' => h m' (List.mem_cons_of_mem m hm')
      refine ⟨last, ?_⟩
      rw [List.flatMap_cons, List.foldl_append, read_serviceMethod (h m List.mem_cons_self), hlast]

/-- The part of a service holds its constants and the calls of its stub. -/
theorem read_serviceHeader {svc : ServiceDescriptor} (hs : IsIdentifier svc.name)
    (hms : ∀ m ∈ svc.methods, IsIdentifier m.name ∧ (34 : UInt8) ∉ methodPath svc m) :
    ∃ scope' last,
      (serviceHeader svc).foldl HeaderScan.readLine ⟨scope, member, .nothing, cs, us⟩ =
        ⟨scope', last, .nothing, cs ++ svc.constants, us ++ svc.uses (text "Stub")⟩ := by
  have hnames : ∀ m ∈ svc.methods, IsIdentifier m.name := fun m hm => (hms m hm).1
  obtain ⟨last, hstub⟩ := read_stub hs (svc.name ++ text "Stub") (cs ++ svc.constants)
    svc.methods member us hnames
  obtain ⟨last', hservice⟩ := read_service (svc.name ++ text "Service")
    (cs ++ svc.constants) (us ++ svc.uses (text "Stub")) svc.methods last hnames
  refine ⟨svc.name ++ text "Service", last', ?_⟩
  simp only [ServiceDescriptor.constants, ServiceDescriptor.uses] at hstub hservice ⊢
  simp only [serviceHeader, List.foldl_append, List.foldl_cons, List.foldl_nil]
  rw [readLine_inert (by decide), readLine_namespace hs.2 (text "Methods") (text "\x7b")
      (List.all_eq_true.1 (by decide)) (by rfl), read_constants svc hms,
    readLine_inert (by decide), readLine_nil,
    readLine_class hs.2 (text "Stub") (text "\x7b")
      (List.all_eq_true.1 (by decide)) (by rfl),
    readLine_literal (by decide), readLine_inert (by decide), readLine_literal (by decide),
    readLine_literal (by decide), readLine_nil, hstub, readLine_literal (by decide),
    readLine_literal (by decide), readLine_literal (by decide), readLine_nil,
    readLine_class hs.2 (text "Service") (text "\x7b")
      (List.all_eq_true.1 (by decide)) (by rfl),
    readLine_literal (by decide), readLine_inert (by decide), readLine_nil, hservice,
    readLine_literal (by decide), readLine_literal (by decide), readLine_nil]

/-- The parts of all services. -/
theorem read_services : ∀ {svcs : List ServiceDescriptor} (scope member : Bytes)
    (cs : List MethodConstant) (us : List MethodUse),
    (∀ svc ∈ svcs, IsIdentifier svc.name ∧
      ∀ m ∈ svc.methods, IsIdentifier m.name ∧ (34 : UInt8) ∉ methodPath svc m) →
    ∃ scope' last,
      (svcs.flatMap serviceHeader).foldl HeaderScan.readLine ⟨scope, member, .nothing, cs, us⟩ =
        ⟨scope', last, .nothing, cs ++ svcs.flatMap (·.constants),
          us ++ svcs.flatMap (·.uses (text "Stub"))⟩
  | [], scope, member, _, _, _ => ⟨scope, member, by simp⟩
  | svc :: svcs, _, _, _, _, h => by
      obtain ⟨hs, hms⟩ := h svc List.mem_cons_self
      obtain ⟨scope', last, hfirst⟩ := read_serviceHeader hs hms
      obtain ⟨scope'', last', hrest⟩ := read_services _ _ _ _
        fun svc' hsvc' => h svc' (List.mem_cons_of_mem svc hsvc')
      refine ⟨scope'', last', ?_⟩
      rw [List.flatMap_cons, List.foldl_append, hfirst, hrest]
      simp

/-- The package opens a namespace of its own. -/
theorem read_openNamespace (file : FileDescriptor) (scope member : Bytes)
    (cs : List MethodConstant) (us : List MethodUse) : ∃ scope',
    (openNamespace file).foldl HeaderScan.readLine ⟨scope, member, .nothing, cs, us⟩ =
      ⟨scope', member, .nothing, cs, us⟩ := by
  rw [openNamespace]
  split
  · exact ⟨scope, rfl⟩
  · refine ⟨(packageToNamespace file.package ++ text " \x7b").takeWhile isLetter, ?_⟩
    simp only [List.foldl_cons, List.foldl_nil, HeaderScan.readLine, HeaderScan.readFree,
      stripPrefix_append]
    rfl

theorem read_closeNamespace (file : FileDescriptor) :
    (closeNamespace file).foldl HeaderScan.readLine ⟨scope, member, .nothing, cs, us⟩ =
      ⟨scope, member, .nothing, cs, us⟩ := by
  rw [closeNamespace]
  split
  · rfl
  · rw [List.foldl_cons, readLine_inert (by decide), List.foldl_nil]

end

/-! ## The source -/

section

variable {scope : Bytes} {rs : List MethodUse}

/-- A line outside of a registration that the reader of the source passes over. -/
theorem readSource_outside {q : Bytes}
    (h : (clash (text "void ") q && clash (text "    server.") q) = true) (x : Bytes) :
    (⟨scope, .outside, rs⟩ : SourceScan).readLine (q ++ x) = ⟨scope, .outside, rs⟩ := by
  obtain ⟨hvoid, hserver⟩ := Bool.and_eq_true_iff.1 h
  simp only [SourceScan.readLine, stripPrefix_clash hvoid, stripPrefix_clash hserver]

theorem readSource_literal {q : Bytes}
    (h : (clash (text "void ") q && clash (text "    server.") q) = true) :
    (⟨scope, .outside, rs⟩ : SourceScan).readLine q = ⟨scope, .outside, rs⟩ := by
  rw [← List.append_nil q]
  exact readSource_outside h []

theorem readSource_nil : (⟨scope, .outside, rs⟩ : SourceScan).readLine [] = ⟨scope, .outside, rs⟩ :=
  rfl

/-- A line of a registration in front of the call of the member function. -/
theorem readSource_inside {q : Bytes} {k : HandlerKind} {space constant : Bytes}
    (h : clash (text "            return this->") q = true) (x : Bytes) :
    (⟨scope, .handler k space constant, rs⟩ : SourceScan).readLine (q ++ x) =
      ⟨scope, .handler k space constant, rs⟩ := by
  simp only [SourceScan.readLine, stripPrefix_clash h]

theorem readSource_insideLiteral {q : Bytes} {k : HandlerKind} {space constant : Bytes}
    (h : clash (text "            return this->") q = true) :
    (⟨scope, .handler k space constant, rs⟩ : SourceScan).readLine q =
      ⟨scope, .handler k space constant, rs⟩ := by
  rw [← List.append_nil q]
  exact readSource_inside h []

/-- The call of the member function. -/
theorem readSource_member {w : Bytes} (hw : IsIdentifier w) {k : HandlerKind}
    {space constant : Bytes} (x : Bytes) {q : Bytes} (hq : q = 40 :: x) :
    (⟨scope, .handler k space constant, rs⟩ : SourceScan).readLine
        (text "            return this->" ++ (w ++ q)) =
      ⟨scope, .outside, rs ++ [⟨scope, w, k, space, constant⟩]⟩ := by
  rw [hq]
  simp only [SourceScan.readLine, stripPrefix_append,
    takeWhile_word hw.2 (show isLetter 40 = false from rfl)]

/-- The kind and the constant of a registration. -/
theorem readSource_constant {svc : ServiceDescriptor} {m : MethodDescriptor}
    (hs : IsIdentifier svc.name) (hm : IsIdentifier m.name) {k : HandlerKind} (q : Bytes)
    {l : Bytes} (hl : l = text "    server." ++ q) (hk : lookupKind registerKinds q = some k) :
    ((⟨scope, .outside, rs⟩ : SourceScan).readLine l).readLine
        (text "        " ++ (constantName svc m ++ text ",")) =
      ⟨scope, .handler k (svc.name ++ text "Methods") m.name, rs⟩ := by
  have href : readReference (text "        " ++ (constantName svc m ++ text ",")) =
      (svc.name ++ text "Methods", m.name) := readReference_constantName 8 hs hm []
  rw [hl]
  simp only [SourceScan.readLine, stripPrefix_append, hk, Option.map_some, Option.getD_some, href,
    stripPrefix_clash (show clash (text "void ") (text "    server.") = true by decide)]

/-- A registration binds a member function to its own constant. -/
theorem read_registration {svc : ServiceDescriptor} {m : MethodDescriptor}
    (hs : IsIdentifier svc.name) (hm : IsIdentifier m.name) :
    (registration svc m).foldl SourceScan.readLine ⟨scope, .outside, rs⟩ =
      ⟨scope, .outside,
        rs ++ [⟨scope, m.name, m.kind, svc.name ++ text "Methods", m.name⟩]⟩ := by
  rw [registration]
  cases hk : m.kind with
  | unary =>
      simp only [List.foldl_cons, List.foldl_nil]
      rw [readSource_constant hs hm (text "RegisterUnary(") (by rfl) (by rfl),
        readSource_insideLiteral (by decide), readSource_inside (by decide),
        readSource_inside (by decide), readSource_member hm (text "ctx, req);") (by rfl),
        readSource_literal (by decide)]
  | serverStreaming =>
      simp only [List.foldl_cons, List.foldl_nil]
      rw [readSource_constant hs hm (text "RegisterServerStreaming(") (by rfl) (by rfl),
        readSource_insideLiteral (by decide), readSource_inside (by decide),
        readSource_inside (by decide), readSource_insideLiteral (by decide),
        readSource_member hm (text "ctx, req, writer);") (by rfl), readSource_literal (by decide)]
  | clientStreaming =>
      simp only [List.foldl_cons, List.foldl_nil]
      rw [readSource_constant hs hm (text "RegisterClientStreaming(") (by rfl) (by rfl),
        readSource_insideLiteral (by decide), readSource_inside (by decide),
        readSource_inside (by decide), readSource_member hm (text "ctx, reader);") (by rfl),
        readSource_literal (by decide)]
  | bidi =>
      simp only [List.foldl_cons, List.foldl_nil]
      rw [readSource_constant hs hm (text "RegisterBidi(") (by rfl) (by rfl),
        readSource_insideLiteral (by decide), readSource_inside (by decide),
        readSource_inside (by decide), readSource_insideLiteral (by decide),
        readSource_member hm (text "ctx, reader, writer);") (by rfl),
        readSource_literal (by decide)]

/-- The registrations of a class. -/
theorem read_registrations {svc : ServiceDescriptor} (hs : IsIdentifier svc.name) :
    ∀ {ms : List MethodDescriptor} {rs : List MethodUse}, (∀ m ∈ ms, IsIdentifier m.name) →
      (ms.flatMap (registration svc)).foldl SourceScan.readLine ⟨scope, .outside, rs⟩ =
        ⟨scope, .outside,
          rs ++ ms.map fun m => ⟨scope, m.name, m.kind, svc.name ++ text "Methods", m.name⟩⟩
  | [], rs, _ => by simp
  | m :: ms, rs, h => by
      rw [List.flatMap_cons, List.foldl_append, read_registration hs (h m List.mem_cons_self),
        read_registrations hs fun m' hm' => h m' (List.mem_cons_of_mem m hm')]
      simp

/-- The part of a service registers its methods. -/
theorem read_serviceSource {svc : ServiceDescriptor} (hs : IsIdentifier svc.name)
    (hms : ∀ m ∈ svc.methods, IsIdentifier m.name) :
    (serviceSource svc).foldl SourceScan.readLine ⟨scope, .outside, rs⟩ =
      ⟨svc.name ++ text "Service", .outside, rs ++ svc.uses (text "Service")⟩ := by
  have hopen : (⟨scope, .outside, rs⟩ : SourceScan).readLine
      (text "void " ++ (svc.name ++ text "Service::Register(::rpcpio::Server& server) \x7b")) =
      ⟨svc.name ++ text "Service", .outside, rs⟩ := by
    have hsplit : svc.name ++ text "Service::Register(::rpcpio::Server& server) \x7b" =
        (svc.name ++ text "Service") ++
          58 :: text ":Register(::rpcpio::Server& server) \x7b" := by
      rw [List.append_assoc]
      rfl
    have hword : ∀ c ∈ svc.name ++ text "Service", isLetter c = true :=
      letters_append hs.2 (List.all_eq_true.1 (by decide))
    simp only [SourceScan.readLine, stripPrefix_append, hsplit,
      takeWhile_word hword (show isLetter 58 = false from rfl)]
  simp only [serviceSource, List.foldl_append, List.foldl_cons, List.foldl_nil, hopen,
    read_registrations hs hms, ServiceDescriptor.uses]
  rw [readSource_literal (by decide), readSource_nil]

/-- The parts of all services. -/
theorem read_sources : ∀ {svcs : List ServiceDescriptor} (scope : Bytes) (rs : List MethodUse),
    (∀ svc ∈ svcs, IsIdentifier svc.name ∧ ∀ m ∈ svc.methods, IsIdentifier m.name) →
    ∃ scope', (svcs.flatMap serviceSource).foldl SourceScan.readLine ⟨scope, .outside, rs⟩ =
      ⟨scope', .outside, rs ++ svcs.flatMap (·.uses (text "Service"))⟩
  | [], scope, _, _ => ⟨scope, by simp⟩
  | svc :: svcs, _, _, h => by
      obtain ⟨hs, hms⟩ := h svc List.mem_cons_self
      obtain ⟨scope', hrest⟩ := read_sources _ _
        fun svc' hsvc' => h svc' (List.mem_cons_of_mem svc hsvc')
      refine ⟨scope', ?_⟩
      rw [List.flatMap_cons, List.foldl_append, read_serviceSource hs hms, hrest]
      simp

theorem readSource_namespaces (file : FileDescriptor) :
    (openNamespace file).foldl SourceScan.readLine ⟨scope, .outside, rs⟩ = ⟨scope, .outside, rs⟩ ∧
      (closeNamespace file).foldl SourceScan.readLine ⟨scope, .outside, rs⟩ =
        ⟨scope, .outside, rs⟩ := by
  rw [openNamespace, closeNamespace]
  split
  · exact ⟨rfl, rfl⟩
  · simp only [List.foldl_cons, List.foldl_nil]
    rw [readSource_outside (by decide), readSource_nil, readSource_outside (by decide)]
    exact ⟨rfl, rfl⟩

end

/-! ## No line holds a line break -/

theorem not_mem_identifier {w : Bytes} (hw : ∀ c ∈ w, isLetter c = true) {d : UInt8}
    (hd : isLetter d = false) : d ∉ w := fun h => by
  rw [hw d h] at hd
  cases hd

theorem not_mem_dotsToColons {w : Bytes} {d : UInt8} (hd : d ≠ 58) (hw : d ∉ w) :
    d ∉ dotsToColons w := by
  simp only [dotsToColons, List.mem_flatMap, not_exists, not_and]
  intro c hc hmem
  split at hmem
  · simp [hd] at hmem
  · rw [List.mem_singleton] at hmem
    exact hw (hmem ▸ hc)

theorem not_mem_protoBaseName {w : Bytes} {d : UInt8} (hw : d ∉ w) : d ∉ protoBaseName w := by
  rw [protoBaseName]
  split
  · intro hmem
    exact hw (List.mem_reverse.1 ((List.dropWhile_sublist _).mem
      (List.mem_of_mem_drop (List.mem_reverse.1 hmem))))
  · exact hw

/-- No line of a list holds a line break. -/
def Unbroken (ls : List Bytes) : Prop := ∀ l ∈ ls, (10 : UInt8) ∉ l

@[simp] theorem unbroken_nil : Unbroken [] := fun _ h => by cases h

@[simp] theorem unbroken_cons {l : Bytes} {ls : List Bytes} :
    Unbroken (l :: ls) ↔ (10 : UInt8) ∉ l ∧ Unbroken ls := List.forall_mem_cons

@[simp] theorem unbroken_append {ls ls' : List Bytes} :
    Unbroken (ls ++ ls') ↔ Unbroken ls ∧ Unbroken ls' := List.forall_mem_append

@[simp] theorem unbroken_flatMap {ι : Type} {xs : List ι} {f : ι → List Bytes} :
    Unbroken (xs.flatMap f) ↔ ∀ x ∈ xs, Unbroken (f x) := by
  simp only [Unbroken, List.mem_flatMap]
  exact ⟨fun h x hx l hl => h l ⟨x, hx, hl⟩, fun h l ⟨x, hx, hl⟩ => h x hx l hl⟩

section

variable {svc : ServiceDescriptor} {m : MethodDescriptor} (hs : (10 : UInt8) ∉ svc.name)
  (hf : (10 : UInt8) ∉ svc.fullName) (hm : (10 : UInt8) ∉ m.name)
  (hin : (10 : UInt8) ∉ m.inputType) (hout : (10 : UInt8) ∉ m.outputType)

include hf hm hin hout in
theorem unbroken_methodConstant : Unbroken (methodConstant svc m) := by
  have hreq := not_mem_dotsToColons (by decide) hin
  have hresp := not_mem_dotsToColons (by decide) hout
  cases hk : m.kind <;>
    simp +decide [methodConstant, methodClass, hk, fullCppType, methodPath, hf, hm, hreq, hresp]

theorem unbroken_deprecation (m : MethodDescriptor) : Unbroken (deprecation m) := by
  rw [deprecation]
  split
  · simp +decide
  · simp

include hs hm hin hout in
theorem unbroken_stubMethod : Unbroken (stubMethod svc m) := by
  have hreq := not_mem_dotsToColons (by decide) hin
  have hresp := not_mem_dotsToColons (by decide) hout
  have hdep := unbroken_deprecation m
  cases hk : m.kind <;>
    simp +decide [stubMethod, hk, fullCppType, constantName, hs, hm, hreq, hresp, hdep]

include hm hin hout in
theorem unbroken_serviceMethod : Unbroken (serviceMethod m) := by
  have hreq := not_mem_dotsToColons (by decide) hin
  have hresp := not_mem_dotsToColons (by decide) hout
  have hdep := unbroken_deprecation m
  cases hk : m.kind <;>
    simp +decide [serviceMethod, hk, fullCppType, hm, hreq, hresp, hdep]

include hs hm hin hout in
theorem unbroken_registration : Unbroken (registration svc m) := by
  have hreq := not_mem_dotsToColons (by decide) hin
  have hresp := not_mem_dotsToColons (by decide) hout
  cases hk : m.kind <;>
    simp +decide [registration, hk, fullCppType, constantName, hs, hm, hreq, hresp]

end

/-! ## The texts -/

section

variable {file : FileDescriptor}

/-- The lines around the services. -/
theorem FileDescriptor.WellNamed.namespaces (h : file.WellNamed) :
    Unbroken (openNamespace file) ∧ Unbroken (closeNamespace file) := by
  have hns : (10 : UInt8) ∉ packageToNamespace file.package := by
    rw [packageToNamespace]
    split
    · simp
    · exact not_mem_dotsToColons (by decide) h.package.1
  rw [openNamespace, closeNamespace]
  split
  · simp
  · simp +decide [hns]

/-- What the reader needs of the services and the methods. -/
theorem FileDescriptor.WellNamed.identifiers (h : file.WellNamed) :
    ∀ svc ∈ file.services, IsIdentifier svc.name ∧
      ∀ m ∈ svc.methods, IsIdentifier m.name ∧ (34 : UInt8) ∉ methodPath svc m := by
  intro svc hsvc
  refine ⟨(h.services svc hsvc).1, fun m hm => ⟨(h.methods svc hsvc m hm).1, ?_⟩⟩
  have hname := not_mem_identifier (d := 34) (h.methods svc hsvc m hm).1.2 rfl
  have hfull := (h.services svc hsvc).2.2
  simp +decide [methodPath, hname, hfull]

theorem FileDescriptor.WellNamed.unbroken_header (h : file.WellNamed) :
    Unbroken (headerLines file) := by
  have hbase := not_mem_protoBaseName h.source.1
  have hservices : ∀ svc ∈ file.services, Unbroken (serviceHeader svc) := by
    intro svc hsvc
    have hs := not_mem_identifier (d := 10) (h.services svc hsvc).1.2 rfl
    have hf := (h.services svc hsvc).2.1
    have hmethods : ∀ m ∈ svc.methods, Unbroken (methodConstant svc m) ∧
        Unbroken (stubMethod svc m) ∧ Unbroken (serviceMethod m) := by
      intro m hm
      obtain ⟨hname, hin, hout⟩ := h.methods svc hsvc m hm
      have hname := not_mem_identifier (d := 10) hname.2 rfl
      exact ⟨unbroken_methodConstant hf hname hin.1 hout.1,
        unbroken_stubMethod hs hname hin.1 hout.1, unbroken_serviceMethod hname hin.1 hout.1⟩
    simp +decide only [serviceHeader, unbroken_append, unbroken_cons, unbroken_nil,
      unbroken_flatMap, List.mem_append, hs, hf, or_self, not_false_eq_true, and_true, true_and]
    exact ⟨⟨fun m hm => (hmethods m hm).1, fun m hm => (hmethods m hm).2.1⟩,
      fun m hm => (hmethods m hm).2.2⟩
  simp +decide only [headerLines, unbroken_append, unbroken_cons, unbroken_nil, unbroken_flatMap,
    List.mem_append, h.source.1, hbase, h.namespaces.1, h.namespaces.2, or_self,
    not_false_eq_true, and_true, true_and]
  exact hservices

/-- **The header holds the constants of the methods, and the calls of their stubs.** -/
theorem readHeader_generateHeader (h : file.WellNamed) :
    readHeader (generateHeader file) = (file.services.flatMap (·.constants),
      file.services.flatMap (·.uses (text "Stub"))) := by
  obtain ⟨scope, hopen⟩ := read_openNamespace file [] [] [] []
  obtain ⟨scope', last, hservices⟩ := read_services scope [] [] [] h.identifiers
  have hread : (headerLines file).foldl HeaderScan.readLine ⟨[], [], .nothing, [], []⟩ =
      ⟨scope', last, .nothing, file.services.flatMap (·.constants),
        file.services.flatMap (·.uses (text "Stub"))⟩ := by
    simp only [headerLines, List.foldl_append, List.foldl_cons, List.foldl_nil]
    rw [readLine_literal (by decide), readLine_inert (by decide), readLine_nil,
      readLine_literal (by decide), readLine_nil]
    -- the runtime's headers
    iterate 10 rw [readLine_literal (by decide)]
    rw [readLine_inert (by decide), readLine_nil, hopen, hservices, read_closeNamespace,
      List.nil_append, List.nil_append]
  rw [readHeader, generateHeader, lines_unlines h.unbroken_header, hread]

theorem FileDescriptor.WellNamed.unbroken_source (h : file.WellNamed) :
    Unbroken (sourceLines file) := by
  have hbase := not_mem_protoBaseName h.source.1
  have hservices : ∀ svc ∈ file.services, Unbroken (serviceSource svc) := by
    intro svc hsvc
    have hs := not_mem_identifier (d := 10) (h.services svc hsvc).1.2 rfl
    have hmethods : ∀ m ∈ svc.methods, Unbroken (registration svc m) := by
      intro m hm
      obtain ⟨hname, hin, hout⟩ := h.methods svc hsvc m hm
      exact unbroken_registration hs (not_mem_identifier hname.2 rfl) hin.1 hout.1
    simp +decide only [serviceSource, unbroken_append, unbroken_cons, unbroken_nil,
      unbroken_flatMap, List.mem_append, hs, or_self, not_false_eq_true, and_true, true_and]
    exact hmethods
  simp +decide only [sourceLines, unbroken_append, unbroken_cons, unbroken_nil, unbroken_flatMap,
    List.mem_append, h.source.1, hbase, h.namespaces.1, h.namespaces.2, or_self,
    not_false_eq_true, and_true, true_and]
  exact hservices

/-- **The source holds the registrations of the methods.** -/
theorem readSource_generateSource (h : file.WellNamed) :
    readSource (generateSource file) = file.services.flatMap (·.uses (text "Service")) := by
  have hnames : ∀ svc ∈ file.services, IsIdentifier svc.name ∧
      ∀ m ∈ svc.methods, IsIdentifier m.name := fun svc hsvc =>
    ⟨(h.identifiers svc hsvc).1, fun m hm => ((h.identifiers svc hsvc).2 m hm).1⟩
  obtain ⟨scope, hservices⟩ := read_sources [] [] hnames
  have hread : (sourceLines file).foldl SourceScan.readLine ⟨[], .outside, []⟩ =
      ⟨scope, .outside, file.services.flatMap (·.uses (text "Service"))⟩ := by
    simp only [sourceLines, List.foldl_append, List.foldl_cons, List.foldl_nil]
    rw [readSource_literal (by decide), readSource_outside (by decide), readSource_nil,
      readSource_outside (by decide), readSource_nil, (readSource_namespaces file).1, hservices,
      (readSource_namespaces file).2, List.nil_append]
  rw [readSource, generateSource, lines_unlines h.unbroken_source, hread]

end

end Rpcpio.Compiler

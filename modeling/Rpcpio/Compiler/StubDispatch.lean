import Rpcpio.Compiler.GeneratedCode

/-!
# From a stub to its handler

The meaning of the generated code: a constant stands for the kind and the path it was declared with,
`Register` puts the member functions of the service into the tables of the server, and a call of the
stub is a request for the path of its constant. Paths of different methods differ, so that every
call reaches the member function of its own name.
-/

set_option autoImplicit false

namespace Rpcpio.Compiler

open Rpcpio.Library Rpcpio.Protocol Rpcpio.Stream Rpcpio.Server

/-- A file as protoc hands it over: full names are qualified with the package, and names of one
scope differ. -/
structure FileDescriptor.WellFormed (file : FileDescriptor) : Prop where
  named : file.WellNamed
  package : (47 : UInt8) ∉ file.package
  qualified : ∀ svc ∈ file.services,
    svc.fullName = if file.package.isEmpty then svc.name else file.package ++ text "." ++ svc.name
  services : (file.services.map (·.name)).Nodup
  methods : ∀ svc ∈ file.services, (svc.methods.map (·.name)).Nodup

/-! ## The meaning of the generated code -/

/-- The kind and the path of the constant that a use refers to. -/
def resolve (cs : List MethodConstant) (u : MethodUse) : Option (HandlerKind × Bytes) :=
  (cs.find? fun c => c.space = u.space && c.name = u.constant).map fun c => (c.kind, c.path)

/-- The tables of a server, with the member functions that are bound in them. -/
structure Registry where
  server : ServerImpl
  bound : List ((HandlerKind × Bytes) × (Bytes × Bytes))
  deriving DecidableEq, Repr

namespace Registry

/-- A server without handlers. -/
def empty (opts : ServerOptions) : Registry := ⟨⟨opts, false, [], [], [], []⟩, []⟩

/-- `RegisterUnaryRaw`, `RegisterServerStreamingRaw`, `RegisterClientStreamingRaw` and
`RegisterBidiRaw`: the newest binding of a path is in front. -/
def register (r : Registry) (kind : HandlerKind) (path : Bytes) (handler : Bytes × Bytes) :
    Registry where
  server :=
    match kind with
    | .unary => { r.server with handlers := path :: r.server.handlers }
    | .serverStreaming =>
        { r.server with serverStreamingHandlers := path :: r.server.serverStreamingHandlers }
    | .clientStreaming =>
        { r.server with clientStreamingHandlers := path :: r.server.clientStreamingHandlers }
    | .bidi => { r.server with bidiHandlers := path :: r.server.bidiHandlers }
  bound := ((kind, path), handler) :: r.bound

/-- A line of `Register`; a constant of another kind would not compile. -/
def registerUse (cs : List MethodConstant) (r : Registry) (u : MethodUse) : Registry :=
  match resolve cs u with
  | some (kind, path) => if kind = u.kind then r.register kind path (u.owner, u.member) else r
  | none => r

/-- The member function that a request for a path reaches. -/
def dispatch (r : Registry) (path : Bytes) : Option (HandlerKind × (Bytes × Bytes)) :=
  (handlerKind r.server path).bind fun kind =>
    (r.bound.find? fun b => b.1 = (kind, path)).map fun b => (kind, b.2)

/-- The table of a kind. -/
def table (r : Registry) : HandlerKind → List Bytes
  | .unary => r.server.handlers
  | .serverStreaming => r.server.serverStreamingHandlers
  | .clientStreaming => r.server.clientStreamingHandlers
  | .bidi => r.server.bidiHandlers

/-- The tables hold what is bound. -/
def Consistent (r : Registry) : Prop :=
  ∀ kind path, path ∈ r.table kind ↔ ∃ handler, ((kind, path), handler) ∈ r.bound

theorem consistent_empty (opts : ServerOptions) : (empty opts).Consistent := by
  intro kind path
  cases kind <;> simp [empty, table]

theorem Consistent.register {r : Registry} (h : r.Consistent) (kind : HandlerKind) (path : Bytes)
    (handler : Bytes × Bytes) : (r.register kind path handler).Consistent := by
  intro kind' path'
  have hold := h kind' path'
  have htable : path' ∈ (r.register kind path handler).table kind' ↔
      (kind' = kind ∧ path' = path) ∨ path' ∈ r.table kind' := by
    cases kind <;> cases kind' <;> simp [Registry.register, table]
  rw [htable, hold]
  constructor
  · rintro (⟨rfl, rfl⟩ | ⟨handler', hmem⟩)
    · exact ⟨handler, List.mem_cons_self⟩
    · exact ⟨handler', List.mem_cons_of_mem _ hmem⟩
  · rintro ⟨handler', hmem⟩
    rcases List.mem_cons.1 hmem with heq | hmem
    · exact Or.inl (Prod.mk.inj (Prod.mk.inj heq).1)
    · exact Or.inr ⟨handler', hmem⟩

/-- A path that is bound once is dispatched to its member function. -/
theorem Consistent.dispatch {r : Registry} (h : r.Consistent) {kind : HandlerKind} {path : Bytes}
    {handler : Bytes × Bytes} (hbound : ((kind, path), handler) ∈ r.bound)
    (hunique : ∀ kind' handler', ((kind', path), handler') ∈ r.bound →
      kind' = kind ∧ handler' = handler) :
    r.dispatch path = some (kind, handler) := by
  have hin : path ∈ r.table kind := (h kind path).2 ⟨handler, hbound⟩
  have hother : ∀ kind', kind' ≠ kind → path ∉ r.table kind' := by
    intro kind' hne hmem
    obtain ⟨handler', hmem⟩ := (h kind' path).1 hmem
    exact hne (hunique kind' handler' hmem).1
  -- the first table with the path is the only one
  have hkind : handlerKind r.server path = some kind := by
    have hu := hother .unary
    have hss := hother .serverStreaming
    have hcs := hother .clientStreaming
    cases kind <;> simp_all [handlerKind, table]
  have hfind : r.bound.find? (fun b => b.1 = (kind, path)) = some ((kind, path), handler) := by
    cases hf : r.bound.find? fun b => decide (b.1 = (kind, path)) with
    | none => simpa using List.find?_eq_none.1 hf _ hbound
    | some b =>
        obtain ⟨⟨kind', path'⟩, handler'⟩ := b
        have hkey := List.find?_some hf
        simp only [decide_eq_true_eq, Prod.mk.injEq] at hkey
        obtain ⟨rfl, rfl⟩ := hkey
        obtain ⟨_, rfl⟩ := hunique _ _ (List.mem_of_find?_eq_some hf)
        rfl
  rw [Registry.dispatch, hkind, Option.bind_some, hfind]
  rfl

/-- What is bound after a run of registrations, and that the tables hold it. -/
theorem registerUses (cs : List MethodConstant) :
    ∀ (us : List MethodUse) {r : Registry}, r.Consistent →
      (∀ u ∈ us, ∃ path, resolve cs u = some (u.kind, path)) →
      (us.foldl (registerUse cs) r).Consistent ∧
        ∀ b, b ∈ (us.foldl (registerUse cs) r).bound ↔ b ∈ r.bound ∨ ∃ u ∈ us, ∃ path,
          resolve cs u = some (u.kind, path) ∧ b = ((u.kind, path), (u.owner, u.member))
  | [], r, hr, _ => ⟨hr, fun b => by simp⟩
  | u :: us, r, hr, h => by
      obtain ⟨path, hpath⟩ := h u List.mem_cons_self
      have hstep : r.registerUse cs u = r.register u.kind path (u.owner, u.member) := by
        rw [registerUse, hpath]
        simp
      obtain ⟨hcons, hbound⟩ := registerUses cs us (hr.register u.kind path
        (u.owner, u.member)) fun u' hu' => h u' (List.mem_cons_of_mem u hu')
      rw [List.foldl_cons, hstep]
      refine ⟨hcons, fun b => (hbound b).trans ?_⟩
      simp only [register, List.mem_cons]
      constructor
      · rintro ((rfl | hb) | ⟨u', hu', hb⟩)
        · exact Or.inr ⟨u, Or.inl rfl, path, hpath, rfl⟩
        · exact Or.inl hb
        · exact Or.inr ⟨u', Or.inr hu', hb⟩
      · rintro (hb | ⟨u', rfl | hu', path', hpath', rfl⟩)
        · exact Or.inl (Or.inr hb)
        · rw [hpath, Option.some.injEq, Prod.mk.injEq] at hpath'
          exact Or.inl (Or.inl (by rw [hpath'.2]))
        · exact Or.inr ⟨u', hu', path', hpath', rfl⟩

/-- Registrations leave the options, and a server that is not shut down. -/
theorem server_registerUses (cs : List MethodConstant) :
    ∀ (us : List MethodUse) (r : Registry),
      (us.foldl (registerUse cs) r).server.opts = r.server.opts ∧
        (us.foldl (registerUse cs) r).server.shutdown = r.server.shutdown
  | [], _ => ⟨rfl, rfl⟩
  | u :: us, r => by
      have hone : (r.registerUse cs u).server.opts = r.server.opts ∧
          (r.registerUse cs u).server.shutdown = r.server.shutdown := by
        rw [registerUse]
        split
        · rename_i kind path _
          split
          · cases kind <;> exact ⟨rfl, rfl⟩
          · exact ⟨rfl, rfl⟩
        · exact ⟨rfl, rfl⟩
      obtain ⟨hopts, hshutdown⟩ := server_registerUses cs us (r.registerUse cs u)
      exact ⟨hopts.trans hone.1, hshutdown.trans hone.2⟩

end Registry

/-! ## Names that differ -/

section

variable {file : FileDescriptor} {svc svc' : ServiceDescriptor} {m m' : MethodDescriptor}

/-- Services with one name are one service, and so are methods of it. -/
theorem FileDescriptor.WellFormed.unique (h : file.WellFormed) (hsvc : svc ∈ file.services)
    (hsvc' : svc' ∈ file.services) (hm : m ∈ svc.methods) (hm' : m' ∈ svc'.methods)
    (hname : svc.name = svc'.name) (hmethod : m.name = m'.name) : svc = svc' ∧ m = m' := by
  obtain rfl := List.inj_on_of_nodup_map h.services hsvc hsvc' hname
  exact ⟨rfl, List.inj_on_of_nodup_map (h.methods svc hsvc) hm hm' hmethod⟩

/-- A full name has no slash. -/
theorem FileDescriptor.WellFormed.slash (h : file.WellFormed) (hsvc : svc ∈ file.services) :
    (47 : UInt8) ∉ svc.fullName := by
  have hname := not_mem_identifier (d := 47) (h.named.services svc hsvc).1.2 rfl
  rw [h.qualified svc hsvc]
  split
  · exact hname
  · simp +decide [hname, h.package]

/-- **Different methods have different paths.** -/
theorem FileDescriptor.WellFormed.methodPath_inj (h : file.WellFormed) (hsvc : svc ∈ file.services)
    (hsvc' : svc' ∈ file.services) (hm : m ∈ svc.methods) (hm' : m' ∈ svc'.methods)
    (hpath : methodPath svc m = methodPath svc' m') : svc = svc' ∧ m = m' := by
  simp only [methodPath, List.append_assoc] at hpath
  have hcut := List.append_cancel_left hpath
  obtain ⟨hfull, hmethod⟩ := append_cons_inj (c := 47) (h.slash hsvc) (h.slash hsvc') hcut
  refine h.unique hsvc hsvc' hm hm' ?_ hmethod
  rw [h.qualified svc hsvc, h.qualified svc' hsvc'] at hfull
  split at hfull
  · exact hfull
  · exact List.append_cancel_left hfull

/-- A use of a constant resolves to the kind and the path of its method. -/
theorem FileDescriptor.WellFormed.resolve_use (h : file.WellFormed) (hsvc : svc ∈ file.services)
    (hm : m ∈ svc.methods) (owner member : Bytes) (kind : HandlerKind) :
    resolve (file.services.flatMap (·.constants))
      ⟨owner, member, kind, svc.name ++ text "Methods", m.name⟩ =
        some (m.kind, methodPath svc m) := by
  have hmem : (⟨svc.name ++ text "Methods", m.name, m.kind, methodPath svc m⟩ : MethodConstant) ∈
      file.services.flatMap (·.constants) :=
    List.mem_flatMap.2 ⟨svc, hsvc, List.mem_map.2 ⟨m, hm, rfl⟩⟩
  rw [resolve]
  cases hf : (file.services.flatMap (·.constants)).find? fun c =>
      c.space = svc.name ++ text "Methods" && c.name = m.name with
  | none => simpa using List.find?_eq_none.1 hf _ hmem
  | some c =>
      -- any constant of this name is the one of the method
      obtain ⟨svc', hsvc', hc⟩ := List.mem_flatMap.1 (List.mem_of_find?_eq_some hf)
      obtain ⟨m', hm', rfl⟩ := List.mem_map.1 hc
      have hkey := List.find?_some hf
      simp only [Bool.and_eq_true, decide_eq_true_eq] at hkey
      obtain ⟨rfl, rfl⟩ := h.unique hsvc' hsvc hm' hm (List.append_cancel_right hkey.1) hkey.2
      rfl

end

/-! ## The generated code -/

/-- The server on which the services of the generated files are registered. -/
def registered (opts : ServerOptions) (header source : Bytes) : Registry :=
  (readSource source).foldl (Registry.registerUse (readHeader header).1) (Registry.empty opts)

/-- What the generated code does: the stubs have one call for each method, with the kind and the
path of the method; and a server on which the services are registered dispatches the path to the
member function of that name. -/
structure Dispatches (file : FileDescriptor) (opts : ServerOptions) (header source : Bytes) :
    Prop where
  stubs : (readHeader header).2 = file.services.flatMap (·.uses (text "Stub"))
  called : ∀ svc ∈ file.services, ∀ m ∈ svc.methods,
    resolve (readHeader header).1
      ⟨svc.name ++ text "Stub", m.name, m.kind, svc.name ++ text "Methods", m.name⟩ =
        some (m.kind, methodPath svc m)
  served : ∀ svc ∈ file.services, ∀ m ∈ svc.methods,
    (registered opts header source).dispatch (methodPath svc m) =
      some (m.kind, (svc.name ++ text "Service", m.name))

/-- The two texts of a well-formed file. -/
theorem FileDescriptor.WellFormed.dispatches {file : FileDescriptor} (h : file.WellFormed)
    (opts : ServerOptions) :
    Dispatches file opts (generateHeader file) (generateSource file) := by
  have hread := readHeader_generateHeader h.named
  have hconstants : (readHeader (generateHeader file)).1 =
      file.services.flatMap (·.constants) := by rw [hread]
  refine ⟨by rw [hread], fun svc hsvc m hm => ?_, fun svc hsvc m hm => ?_⟩
  · rw [hconstants]
    exact h.resolve_use hsvc hm _ _ _
  · rw [registered, hconstants, readSource_generateSource h.named]
    have huse : ∀ u ∈ file.services.flatMap (·.uses (text "Service")),
        ∃ svc ∈ file.services, ∃ m ∈ svc.methods,
          u = ⟨svc.name ++ text "Service", m.name, m.kind, svc.name ++ text "Methods", m.name⟩ := by
      intro u hu
      obtain ⟨svc, hsvc, hu⟩ := List.mem_flatMap.1 hu
      obtain ⟨m, hm, rfl⟩ := List.mem_map.1 hu
      exact ⟨svc, hsvc, m, hm, rfl⟩
    obtain ⟨hcons, hbound⟩ := Registry.registerUses (file.services.flatMap (·.constants))
      (file.services.flatMap (·.uses (text "Service")))
      (Registry.consistent_empty opts) (fun u hu => by
        obtain ⟨svc, hsvc, m, hm, rfl⟩ := huse u hu
        exact ⟨methodPath svc m, h.resolve_use hsvc hm _ _ _⟩)
    refine hcons.dispatch ((hbound _).2 (Or.inr ⟨_, List.mem_flatMap.2 ⟨svc, hsvc,
      List.mem_map.2 ⟨m, hm, rfl⟩⟩, methodPath svc m, h.resolve_use hsvc hm _ _ _, rfl⟩)) ?_
    -- whatever is bound to the path is bound for the same method
    intro kind handler hb
    rcases (hbound _).1 hb with hb | ⟨u, hu, path, hpath, heq⟩
    · cases hb
    · obtain ⟨svc', hsvc', m', hm', rfl⟩ := huse u hu
      rw [h.resolve_use hsvc' hm', Option.some.injEq, Prod.mk.injEq] at hpath
      obtain ⟨⟨rfl, rfl⟩, rfl⟩ := Prod.mk.inj heq |>.imp Prod.mk.inj id
      obtain ⟨rfl, rfl⟩ := h.methodPath_inj hsvc hsvc' hm hm' hpath.2.symm
      exact ⟨rfl, rfl⟩

/-- **Every call of a generated stub reaches its own handler.** The files that the plugin writes,
whatever buffers protoc hands out, declare, call and register each method of the file with its own
kind and path, and no two methods share one. -/
theorem generated_dispatch {file : FileDescriptor} (h : file.WellFormed) (hne : file.services ≠ [])
    (opts : ServerOptions) {headerSizes sourceSizes : List Nat} {files : List (Bytes × Bytes)}
    (hgen : generate file headerSizes sourceSizes = (true, files)) :
    ∃ header source, files = [(protoBaseName file.name ++ text ".rpcpio.pb.h", header),
        (protoBaseName file.name ++ text ".rpcpio.pb.cc", source)] ∧
      Dispatches file opts header source := by
  refine ⟨generateHeader file, generateSource file, ?_, h.dispatches opts⟩
  simp only [generate, List.isEmpty_iff, if_neg hne, writeToStream_eq] at hgen
  split at hgen
  · cases hgen
  · rename_i hheader
    simp only [Bool.not_eq_true', Bool.not_eq_false, decide_eq_true_eq] at hheader
    obtain ⟨hsource, hfiles⟩ := Prod.mk.inj hgen
    rw [← hfiles, List.take_of_length_le hheader,
      List.take_of_length_le (of_decide_eq_true hsource)]

def counterGet : MethodDescriptor :=
  ⟨text "Get", false, false, text "demo.Key", text "demo.Value", false⟩

def counterWatch : MethodDescriptor :=
  ⟨text "Watch", false, true, text "demo.Key", text "demo.Value", true⟩

def counterAdd : MethodDescriptor :=
  ⟨text "Add", true, false, text "demo.Key", text "demo.Value", false⟩

def counterTalk : MethodDescriptor :=
  ⟨text "Talk", true, true, text "demo.Key", text "demo.Value", false⟩

def counterService : ServiceDescriptor where
  name := text "Counter"
  fullName := text "demo.Counter"
  methods := [counterGet, counterWatch, counterAdd, counterTalk]

/-- A file with a method of each kind. -/
def exampleFile : FileDescriptor where
  name := text "demo/counter.proto"
  package := text "demo"
  services := [counterService]

theorem exampleFile_wellFormed : exampleFile.WellFormed := by
  refine ⟨⟨?_, ?_, ?_, ?_⟩, ?_, ?_, ?_, ?_⟩ <;> decide

/-- The buffers are too small for a line, or empty. -/
theorem generated_dispatch_example :
    ∃ header source, (generate exampleFile [0, 100, 4000, 4000] [7, 4000]).2 =
        [(protoBaseName exampleFile.name ++ text ".rpcpio.pb.h", header),
          (protoBaseName exampleFile.name ++ text ".rpcpio.pb.cc", source)] ∧
      Dispatches exampleFile ServerOptions.default header source := by
  have hgen : (generate exampleFile [0, 100, 4000, 4000] [7, 4000]).1 = true := by decide +kernel
  cases hout : generate exampleFile [0, 100, 4000, 4000] [7, 4000] with
  | mk result files =>
      rw [hout] at hgen
      cases hgen
      exact generated_dispatch exampleFile_wellFormed (by decide) ServerOptions.default hout

end Rpcpio.Compiler

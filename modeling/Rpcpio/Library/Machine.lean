import Mathlib.Logic.Basic

/-!
# Executable labelled machines

A machine is a partial step function: `step s e` is the state after event `e`, and `none` when `e`
is not enabled in `s`. A run is a list of enabled events. Two induction rules carry every safety
proof: a property preserved by each step holds after a run (`run_invariant`), and a property
preserved by the steps that meet a side condition holds after a run all of whose steps meet it
(`run_invariant_along`). A preorder respected by each step relates the ends of a run
(`run_preorder`).
-/

set_option autoImplicit false

namespace Rpcpio.Library

universe u v w z

/-- A labelled machine given by its partial step function. -/
structure Machine (σ : Type u) (ε : Type v) where
  step : σ → ε → Option σ

namespace Machine

variable {σ : Type u} {ε : Type v} (M : Machine σ ε)

/-- The state after the events, if each of them is enabled in turn. -/
def run : σ → List ε → Option σ
  | s, [] => some s
  | s, e :: es => (M.step s e).bind fun t => run t es

/-- The machine whose events are runs of this one, each enabled where its guard holds. -/
def guarded {δ : Type z} (allowed : σ → δ → Bool) (g : δ → List ε) : Machine σ δ :=
  ⟨fun s e => if allowed s e then M.run s (g e) else none⟩

/-- `t` is reached from `s` by some run. -/
def Reaches (s t : σ) : Prop := ∃ es, M.run s es = some t

/-- Every enabled step of the run from `s` meets `good`. -/
def Along (good : σ → ε → Prop) : σ → List ε → Prop
  | _, [] => True
  | s, e :: es => good s e ∧ ∀ t, M.step s e = some t → Along good t es

variable {M}

@[simp] theorem run_nil (s : σ) : M.run s [] = some s := rfl

theorem run_cons (s : σ) (e : ε) (es : List ε) :
    M.run s (e :: es) = (M.step s e).bind fun t => M.run t es := rfl

theorem run_cons_some {s u : σ} {e : ε} {es : List ε} :
    M.run s (e :: es) = some u ↔ ∃ t, M.step s e = some t ∧ M.run t es = some u := by
  rw [run_cons, Option.bind_eq_some_iff]

/-- A run of a concatenation splits at the middle state. -/
theorem run_append {s u : σ} {es fs : List ε} :
    M.run s (es ++ fs) = some u ↔ ∃ t, M.run s es = some t ∧ M.run t fs = some u := by
  induction es generalizing s with
  | nil => simp
  | cons e es ih =>
      rw [List.cons_append, run_cons_some]
      constructor
      · rintro ⟨t, ht, hrun⟩
        obtain ⟨m, hm, hmu⟩ := ih.1 hrun
        exact ⟨m, run_cons_some.2 ⟨t, ht, hm⟩, hmu⟩
      · rintro ⟨m, hm, hmu⟩
        obtain ⟨t, ht, htm⟩ := run_cons_some.1 hm
        exact ⟨t, ht, ih.2 ⟨m, htm, hmu⟩⟩

theorem Reaches.refl (s : σ) : M.Reaches s s := ⟨[], rfl⟩

theorem Reaches.trans {s t u : σ} (h : M.Reaches s t) (h' : M.Reaches t u) : M.Reaches s u := by
  obtain ⟨es, hes⟩ := h
  obtain ⟨fs, hfs⟩ := h'
  exact ⟨es ++ fs, run_append.2 ⟨t, hes, hfs⟩⟩

theorem Reaches.step {s t : σ} {e : ε} (h : M.step s e = some t) : M.Reaches s t :=
  ⟨[e], run_cons_some.2 ⟨t, h, rfl⟩⟩

/-- **Invariant rule.** What every step preserves holds after every run. -/
theorem run_invariant {I : σ → Prop}
    (hstep : ∀ s e t, I s → M.step s e = some t → I t) :
    ∀ (es : List ε) (s t : σ), I s → M.run s es = some t → I t
  | [], s, t, hs, h => by
      rw [run_nil, Option.some.injEq] at h
      exact h ▸ hs
  | e :: es, s, t, hs, h => by
      obtain ⟨m, hm, hrun⟩ := run_cons_some.1 h
      exact run_invariant hstep es m t (hstep s e m hs hm) hrun

theorem Reaches.invariant {I : σ → Prop}
    (hstep : ∀ s e t, I s → M.step s e = some t → I t) {s t : σ} (h : M.Reaches s t) (hs : I s) :
    I t := by
  obtain ⟨es, hes⟩ := h
  exact run_invariant hstep es s t hs hes

/-- **Invariant rule for guarded runs.** What every step meeting `good` preserves holds after every
run whose steps meet `good`. -/
theorem run_invariant_along {I : σ → Prop} {good : σ → ε → Prop}
    (hstep : ∀ s e t, I s → good s e → M.step s e = some t → I t) :
    ∀ (es : List ε) (s t : σ), I s → M.Along good s es → M.run s es = some t → I t
  | [], s, t, hs, _, h => by
      rw [run_nil, Option.some.injEq] at h
      exact h ▸ hs
  | e :: es, s, t, hs, hg, h => by
      obtain ⟨m, hm, hrun⟩ := run_cons_some.1 h
      exact run_invariant_along hstep es m t (hstep s e m hs hg.1 hm) (hg.2 m hm) hrun

/-- A reflexive and transitive relation that every step respects relates the ends of a run. -/
theorem run_preorder {R : σ → σ → Prop} (hrefl : ∀ s, R s s)
    (htrans : ∀ s t u, R s t → R t u → R s u) (hstep : ∀ s e t, M.step s e = some t → R s t) :
    ∀ (es : List ε) (s t : σ), M.run s es = some t → R s t
  | [], s, t, h => by
      rw [run_nil, Option.some.injEq] at h
      exact h ▸ hrefl s
  | e :: es, s, t, h => by
      obtain ⟨m, hm, hrun⟩ := run_cons_some.1 h
      exact htrans s m t (hstep s e m hm) (run_preorder hrefl htrans hstep es m t hrun)

/-- **Invariant rule with a history.** What every step preserves of a state and a value computed
from the events so far holds, after a run, of the fold of the events. -/
theorem run_invariant_foldl {α : Type w} {I : σ → α → Prop} {g : α → ε → α}
    (hstep : ∀ s a e t, I s a → M.step s e = some t → I t (g a e)) :
    ∀ (es : List ε) (s t : σ) (a : α), I s a → M.run s es = some t → I t (es.foldl g a)
  | [], s, t, a, hs, h => by
      rw [run_nil, Option.some.injEq] at h
      exact h ▸ hs
  | e :: es, s, t, a, hs, h => by
      obtain ⟨m, hm, hrun⟩ := run_cons_some.1 h
      exact run_invariant_foldl hstep es m t (g a e) (hstep s a e m hs hm) hrun

/-- **Observation rule.** What each step changes as a function of its event alone is, after a run,
the fold of that function over the events. -/
theorem run_foldl {α : Type w} {f : σ → α} {g : α → ε → α}
    (hstep : ∀ s e t, M.step s e = some t → f t = g (f s) e) (es : List ε) (s t : σ)
    (h : M.run s es = some t) : f t = es.foldl g (f s) :=
  run_invariant_foldl (I := fun s a => f s = a)
    (fun s _ e t hs ht => (hstep s e t ht).trans (congrArg (g · e) hs)) es s t (f s) rfl h

/-- **Ledger rule.** A log to which each step appends what its event says holds, after a run, what
the events say in turn. -/
theorem run_ledger {α : Type w} {f : σ → List α} {g : ε → List α}
    (hstep : ∀ s e t, M.step s e = some t → f t = f s ++ g e) {es : List ε} {s t : σ}
    (h : M.run s es = some t) : f t = f s ++ es.flatMap g := by
  rw [run_foldl (f := f) (g := fun log e => log ++ g e) hstep es s t h,
    List.foldl_append_eq_append, List.flatMap_def]

/-- **Last-value rule.** A cell that each step overwrites with the last value its event gives, if it
gives any, holds the last value of a run. -/
theorem run_getLast? {α : Type w} {f : σ → Option α} {g : ε → List α}
    (hstep : ∀ s e t, M.step s e = some t → f t = (g e).getLast?.or (f s)) {es : List ε} {s t : σ}
    (h : M.run s es = some t) : f t = (es.flatMap g).getLast?.or (f s) := by
  induction es generalizing s with
  | nil =>
      rw [run_nil, Option.some.injEq] at h
      simp [h]
  | cons e es ih =>
      obtain ⟨m, hm, hrun⟩ := run_cons_some.1 h
      rw [ih hrun, hstep s e m hm, List.flatMap_cons, List.getLast?_append, Option.or_assoc]

/-- **Translation rule.** If every event of a machine is a run of another one, a run is the run of
its translated events. -/
theorem run_translate {τ : Type w} {δ : Type z} {N : Machine τ δ} {f : σ → τ} {g : ε → List δ}
    (hstep : ∀ s e s', M.step s e = some s' → N.run (f s) (g e) = some (f s')) :
    ∀ (es : List ε) (s s' : σ), M.run s es = some s' → N.run (f s) (es.flatMap g) = some (f s')
  | [], s, s', h => by
      rw [run_nil, Option.some.injEq] at h
      rw [h]
      rfl
  | e :: es, s, s', h => by
      obtain ⟨m, hm, hrun⟩ := run_cons_some.1 h
      rw [List.flatMap_cons]
      exact run_append.2 ⟨f m, hstep s e m hm, run_translate hstep es m s' hrun⟩

/-- A run of guarded events is a run of what they stand for. -/
theorem guarded_run {δ : Type z} {allowed : σ → δ → Bool} {g : δ → List ε} {s s' : σ}
    {es : List δ} (h : (M.guarded allowed g).run s es = some s') :
    M.run s (es.flatMap g) = some s' :=
  run_translate (f := id) (fun _ _ _ hs => (Option.ite_none_right_eq_some.1 hs).2) es s s' h

/-- Every event of a guarded run is allowed in a state the run has reached before. -/
theorem guarded_allowed {δ : Type z} {allowed : σ → δ → Bool} {g : δ → List ε} {s s' : σ}
    {es : List δ} (h : (M.guarded allowed g).run s es = some s') {e : δ} (he : e ∈ es) :
    ∃ pre post t, es = pre ++ e :: post ∧ (M.guarded allowed g).run s pre = some t ∧
      allowed t e = true := by
  obtain ⟨pre, post, rfl⟩ := List.append_of_mem he
  obtain ⟨t, hpre, hrest⟩ := run_append.1 h
  obtain ⟨u, hstep, _⟩ := run_cons_some.1 hrest
  exact ⟨pre, post, t, rfl, hpre, (Option.ite_none_right_eq_some.1 hstep).1⟩

/-- What the events of a guarded run log underneath. -/
theorem guarded_flatMap {δ : Type z} {α : Type w} {allowed : σ → δ → Bool} {g : δ → List ε}
    {f : ε → List α} {f' : δ → List α} {s s' : σ} {es : List δ}
    (h : (M.guarded allowed g).run s es = some s')
    (hf : ∀ s e, allowed s e = true → (g e).flatMap f = f' e) :
    (es.flatMap g).flatMap f = es.flatMap f' := by
  induction es generalizing s with
  | nil => rfl
  | cons e es ih =>
      obtain ⟨t, hstep, hrun⟩ := run_cons_some.1 h
      rw [List.flatMap_cons, List.flatMap_append, List.flatMap_cons, ih hrun,
        hf s e (Option.ite_none_right_eq_some.1 hstep).1]

/-- **Simulation rule.** If every step is matched by steps of another machine, every run is. -/
theorem run_simulation {τ : Type w} {δ : Type z} {N : Machine τ δ} {R : σ → τ → Prop}
    (hstep : ∀ s e s' t, R s t → M.step s e = some s' → ∃ t', N.Reaches t t' ∧ R s' t') :
    ∀ (es : List ε) (s s' : σ) (t : τ), R s t → M.run s es = some s' →
      ∃ t', N.Reaches t t' ∧ R s' t'
  | [], s, s', t, hR, h => by
      rw [run_nil, Option.some.injEq] at h
      exact ⟨t, Reaches.refl t, h ▸ hR⟩
  | e :: es, s, s', t, hR, h => by
      obtain ⟨m, hm, hrun⟩ := run_cons_some.1 h
      obtain ⟨t₁, ht₁, hR₁⟩ := hstep s e m t hR hm
      obtain ⟨t₂, ht₂, hR₂⟩ := run_simulation hstep es m s' t₁ hR₁ hrun
      exact ⟨t₂, ht₁.trans ht₂, hR₂⟩

/-- **Termination rule.** If every step with an event of a class keeps an invariant and decreases a
measure, such steps lead to a state in which none of them is enabled. -/
theorem exists_quiescent_of {I : σ → Prop} {good : ε → Prop} {μ : σ → Nat}
    (hstep : ∀ s e t, I s → good e → M.step s e = some t → I t)
    (hdec : ∀ s e t, I s → good e → M.step s e = some t → μ t < μ s) (s : σ) (hs : I s) :
    ∃ es t, (∀ e ∈ es, good e) ∧ M.run s es = some t ∧ ∀ e, good e → M.step t e = none := by
  generalize hn : μ s = n
  induction n using Nat.strongRecOn generalizing s with
  | _ n ih =>
      by_cases h : ∀ e, good e → M.step s e = none
      · exact ⟨[], s, by simp, rfl, h⟩
      · obtain ⟨e, hne⟩ := not_forall.1 h
        obtain ⟨he, hne⟩ := Classical.not_imp.1 hne
        obtain ⟨t, ht⟩ := Option.ne_none_iff_exists'.1 hne
        obtain ⟨es, u, hes, hrun, hquiet⟩ :=
          ih (μ t) (hn ▸ hdec s e t hs he ht) t (hstep s e t hs he ht) rfl
        refine ⟨e :: es, u, ?_, run_cons_some.2 ⟨t, ht, hrun⟩, hquiet⟩
        intro f hf
        rcases List.mem_cons.1 hf with rfl | hf
        · exact he
        · exact hes f hf

/-- The termination rule for an invariant of all steps. -/
theorem exists_quiescent {I : σ → Prop} {good : ε → Prop} {μ : σ → Nat}
    (hstep : ∀ s e t, I s → M.step s e = some t → I t)
    (hdec : ∀ s e t, I s → good e → M.step s e = some t → μ t < μ s) (s : σ) (hs : I s) :
    ∃ es t, (∀ e ∈ es, good e) ∧ M.run s es = some t ∧ ∀ e, good e → M.step t e = none :=
  exists_quiescent_of (fun s e t hs _ => hstep s e t hs) hdec s hs

/-- If every step with an event of a class keeps an invariant and decreases a measure, the measure
bounds the runs of such steps. -/
theorem run_length_le_of {I : σ → Prop} {good : ε → Prop} {μ : σ → Nat}
    (hstep : ∀ s e t, I s → good e → M.step s e = some t → I t)
    (hdec : ∀ s e t, I s → good e → M.step s e = some t → μ t < μ s) :
    ∀ (es : List ε) (s t : σ), I s → (∀ e ∈ es, good e) → M.run s es = some t → es.length ≤ μ s
  | [], _, _, _, _, _ => Nat.zero_le _
  | e :: es, s, t, hs, hgood, h => by
      obtain ⟨m, hm, hrun⟩ := run_cons_some.1 h
      have he : good e := hgood e (by simp)
      have hlt := hdec s e m hs he hm
      have hle := run_length_le_of hstep hdec es m t (hstep s e m hs he hm)
        (fun e' he' => hgood e' (by simp [he'])) hrun
      simp only [List.length_cons]
      omega

/-- The bound for an invariant of all steps. -/
theorem run_length_le {I : σ → Prop} {good : ε → Prop} {μ : σ → Nat}
    (hstep : ∀ s e t, I s → M.step s e = some t → I t)
    (hdec : ∀ s e t, I s → good e → M.step s e = some t → μ t < μ s) :
    ∀ (es : List ε) (s t : σ), I s → (∀ e ∈ es, good e) → M.run s es = some t → es.length ≤ μ s :=
  run_length_le_of (fun s e t hs _ => hstep s e t hs) hdec

/-- The guard splits over a concatenation of events. -/
theorem along_append {good : σ → ε → Prop} {s t : σ} {es fs : List ε}
    (h : M.Along good s (es ++ fs)) (hrun : M.run s es = some t) :
    M.Along good s es ∧ M.Along good t fs := by
  induction es generalizing s with
  | nil =>
      rw [run_nil, Option.some.injEq] at hrun
      subst hrun
      exact ⟨trivial, h⟩
  | cons e es ih =>
      obtain ⟨m, hm, hmt⟩ := run_cons_some.1 hrun
      obtain ⟨hg, hrest⟩ := h
      refine ⟨⟨hg, fun m' hm' => ?_⟩, (ih (hrest m hm) hmt).2⟩
      rw [hm, Option.some.injEq] at hm'
      subst hm'
      exact (ih (hrest m hm) hmt).1

/-- A guard that every state of a run meets at its next event is met along the run. -/
theorem along_of_forall {good : σ → ε → Prop} {s : σ} {es : List ε}
    (h : ∀ pre e post t, es = pre ++ e :: post → M.run s pre = some t → good t e) :
    M.Along good s es := by
  induction es generalizing s with
  | nil => trivial
  | cons e es ih =>
      refine ⟨h [] e es s rfl rfl, fun t ht => ih fun pre f post u hes hrun => ?_⟩
      exact h (e :: pre) f post u (by rw [hes, List.cons_append]) (run_cons_some.2 ⟨t, ht, hrun⟩)

/-- Along a guarded run, the next event meets the guard. -/
theorem Along.next {good : σ → ε → Prop} {s t : σ} {pre post : List ε} {e : ε}
    (h : M.Along good s (pre ++ e :: post)) (hrun : M.run s pre = some t) : good t e :=
  (along_append h hrun).2.1

/-- Guards that agree on the events of a run are interchangeable along it. -/
theorem along_congr {good good' : σ → ε → Prop} {es : List ε}
    (h : ∀ s, ∀ e ∈ es, good s e ↔ good' s e) (s : σ) : M.Along good s es ↔ M.Along good' s es := by
  induction es generalizing s with
  | nil => exact Iff.rfl
  | cons e es ih =>
      have hrest : ∀ s, ∀ f ∈ es, good s f ↔ good' s f :=
        fun s f hf => h s f (List.mem_cons_of_mem _ hf)
      constructor
      · rintro ⟨hg, hgs⟩
        exact ⟨(h s e List.mem_cons_self).1 hg, fun t ht => (ih hrest t).1 (hgs t ht)⟩
      · rintro ⟨hg, hgs⟩
        exact ⟨(h s e List.mem_cons_self).2 hg, fun t ht => (ih hrest t).2 (hgs t ht)⟩

/-- Two guards that agree on every step from a state meeting an invariant agree along a run. -/
theorem along_iff_along {I : σ → Prop} {good good' : σ → ε → Prop}
    (hI : ∀ s e t, I s → M.step s e = some t → I t)
    (h : ∀ s e t, I s → M.step s e = some t → (good s e ↔ good' s e)) {s u : σ} {es : List ε}
    (hs : I s) (hrun : M.run s es = some u) : M.Along good s es ↔ M.Along good' s es := by
  induction es generalizing s with
  | nil => exact Iff.rfl
  | cons e es ih =>
      obtain ⟨t, ht, hrest⟩ := run_cons_some.1 hrun
      have htail := ih (hI s e t hs ht) hrest
      constructor
      · rintro ⟨hg, hgs⟩
        refine ⟨(h s e t hs ht).1 hg, fun v hv => ?_⟩
        rw [ht, Option.some.injEq] at hv
        exact hv ▸ htail.1 (hgs t ht)
      · rintro ⟨hg, hgs⟩
        refine ⟨(h s e t hs ht).2 hg, fun v hv => ?_⟩
        rw [ht, Option.some.injEq] at hv
        exact hv ▸ htail.2 (hgs t ht)

/-- After every marked event of the run from `s`, and from then on, `P` holds. -/
def HoldsAfter (M : Machine σ ε) (mark : σ → ε → Prop) (P : σ → Prop) (s : σ) (es : List ε) :
    Prop :=
  ∀ pre e mid post t u, es = pre ++ e :: (mid ++ post) → M.run s pre = some t → mark t e →
    M.run t (e :: mid) = some u → P u

/-- **Marking rule.** If `P` lasts, and a marked step leads to `P` exactly if it is good, then along
a run `P` holds after every marked event exactly if every marked step is good. -/
theorem holdsAfter_iff_along {I P : σ → Prop} {mark good : σ → ε → Prop}
    (hI : ∀ s e t, I s → M.step s e = some t → I t)
    (hP : ∀ s e t, P s → M.step s e = some t → P t)
    (hmark : ∀ s e t, I s → M.step s e = some t → mark s e → (P t ↔ good s e))
    {s u : σ} {es : List ε} (hs : I s) (hrun : M.run s es = some u) :
    M.HoldsAfter mark P s es ↔ M.Along (fun t e => mark t e → good t e) s es := by
  constructor
  · intro hafter
    apply along_of_forall
    intro pre e post t hes hpre hm
    obtain ⟨v, hv, hrest⟩ := run_append.1 (hes ▸ hrun)
    rw [hpre, Option.some.injEq] at hv
    subst hv
    obtain ⟨w, hw, _⟩ := run_cons_some.1 hrest
    have ht := run_invariant hI pre s t hs hpre
    -- the state right after the marked event
    have hPw : P w := hafter pre e [] post t w (by rw [hes, List.nil_append]) hpre hm
      (run_cons_some.2 ⟨w, hw, rfl⟩)
    exact (hmark t e w ht hw hm).1 hPw
  · intro halong pre e mid post t u hes hpre hm htail
    obtain ⟨w, hw, hmid⟩ := run_cons_some.1 htail
    have ht := run_invariant hI pre s t hs hpre
    subst hes
    have hgood := (along_append halong hpre).2.1 hm
    exact run_invariant hP mid w u ((hmark t e w ht hw hm).2 hgood) hmid

/-- A concrete run can be checked against a decidable guard. -/
instance decidableAlong (good : σ → ε → Prop) [∀ s e, Decidable (good s e)] :
    ∀ (s : σ) (es : List ε), Decidable (M.Along good s es)
  | _, [] => isTrue trivial
  | s, e :: es =>
      match hstep : M.step s e with
      | none => decidable_of_iff (good s e) (by simp [Along, hstep])
      | some t =>
          have := decidableAlong good t es
          decidable_of_iff (good s e ∧ M.Along good t es) (by simp [Along, hstep])

end Machine

end Rpcpio.Library

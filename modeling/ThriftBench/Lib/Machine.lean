import Mathlib.Data.List.Induction
import Mathlib.Logic.Basic

namespace Lib

/-!
# Step machines

A system that takes one labelled step at a time: `step s a` is the state after the
action `a`, or `none` where `a` is not enabled.  A nondeterministic system (a
scheduler, an interleaving of threads) is a machine whose actions name the choice, so
"every run" is "every list of actions".

* `run` plays a list of actions; `Meets C` says that every step of that play is taken
  in a state where the guard `C` holds.
* `guarded_bounded_run` is the induction over runs, stated once: an invariant that a
  guarded step keeps, under a bound that can be read backwards from the last state.
  `invariant_run` and `guarded_run` are its two common cases.
* `history_run` is the same for facts about a state and the actions that led to it.
* `meets_of_forall` and `meets_of_invariant` discharge a guard, from the actions of a play or
  from an invariant;
* `meets_or_marked` is the converse question: a play that breaks the guard somewhere ends
  in a state that shows it.
* `Observes` is a play under a guard of which some actions are seen; `simulated_run` carries the
  plays of one machine over to another, each step being answered by a play that shows the
  same.
-/

/-- A labelled, deterministic step function with partial steps. -/
structure Machine (σ α : Type*) where
  /-- The state after action `a` in state `s`; `none` where `a` is not enabled. -/
  step : σ → α → Option σ

namespace Machine

variable {σ α : Type*} (M : Machine σ α)

/-- Play the actions in order, `none` as soon as one of them is not enabled. -/
def run : σ → List α → Option σ
  | s, []      => some s
  | s, a :: as => (M.step s a).bind fun s' => run s' as

/-- Every step of the play is taken in a state that the guard `C` allows. -/
def Meets (C : σ → α → Prop) : σ → List α → Prop
  | _, []      => True
  | s, a :: as => C s a ∧ match M.step s a with
    | some s' => Meets C s' as
    | none    => True

/-- A decidable guard can be checked along a concrete play. -/
instance decidableMeets (C : σ → α → Prop) [∀ s a, Decidable (C s a)] :
    ∀ s as, Decidable (M.Meets C s as)
  | _, []      => inferInstanceAs (Decidable True)
  | s, a :: as =>
    have : Decidable (match M.step s a with
        | some s' => M.Meets C s' as
        | none    => True) :=
      match M.step s a with
      | some s' => decidableMeets C s' as
      | none    => inferInstanceAs (Decidable True)
    inferInstanceAs (Decidable (_ ∧ _))

variable {M}

/-- A play of `a :: as` that goes through takes the step `a` and plays `as` from there. -/
theorem run_cons_eq_some {s t : σ} {a : α} {as : List α} :
    M.run s (a :: as) = some t ↔ ∃ s', M.step s a = some s' ∧ M.run s' as = some t := by
  simp only [run, Option.bind_eq_some_iff]

/-- A step, and a play from its end. -/
theorem run_cons {s s' t : σ} {a : α} {as : List α} (hstep : M.step s a = some s')
    (hrun : M.run s' as = some t) : M.run s (a :: as) = some t :=
  run_cons_eq_some.mpr ⟨s', hstep, hrun⟩

/-- Playing two lists of actions is playing the second from where the first ends. -/
theorem run_append (s : σ) (as bs : List α) :
    M.run s (as ++ bs) = (M.run s as).bind fun t => M.run t bs := by
  induction as generalizing s with
  | nil => rfl
  | cons a as ih =>
    simp only [List.cons_append, run, Option.bind_assoc]
    exact congrArg _ (funext fun s' => ih s')

/-- One more step. -/
theorem run_concat {s t u : σ} {as : List α} {a : α} (hrun : M.run s as = some t)
    (hstep : M.step t a = some u) : M.run s (as ++ [a]) = some u := by
  rw [run_append, hrun]
  exact run_cons hstep rfl

/-- `t` is the end of some play from `s`. -/
def Reaches (M : Machine σ α) (s t : σ) : Prop := ∃ as, M.run s as = some t

theorem Reaches.refl (s : σ) : M.Reaches s s := ⟨[], rfl⟩

/-- A step, and what can be reached from its end. -/
theorem Reaches.head {s s' t : σ} {a : α} (h : M.step s a = some s') (ht : M.Reaches s' t) :
    M.Reaches s t := by
  obtain ⟨as, has⟩ := ht
  exact ⟨a :: as, run_cons h has⟩

theorem Reaches.trans {s t u : σ} (hst : M.Reaches s t) (htu : M.Reaches t u) :
    M.Reaches s u := by
  obtain ⟨as, has⟩ := hst
  obtain ⟨bs, hbs⟩ := htu
  exact ⟨as ++ bs, by rw [run_append, has]; exact hbs⟩

/-- The guard of a taken first step, and of the rest of the play. -/
theorem Meets.of_cons {C : σ → α → Prop} {s s' : σ} {a : α} {as : List α}
    (h : M.Meets C s (a :: as)) (hs : M.step s a = some s') : C s a ∧ M.Meets C s' as := by
  simp only [Meets, hs] at h
  exact h

/-- A guard on a play, one step at a time. -/
theorem Meets.cons {C : σ → α → Prop} {s : σ} {a : α} {as : List α} (h : C s a)
    (hrest : ∀ s', M.step s a = some s' → M.Meets C s' as) : M.Meets C s (a :: as) := by
  refine ⟨h, ?_⟩
  cases hs : M.step s a with
  | none => trivial
  | some s' => exact hrest s' hs

/-- Two plays under a guard, one after the other. -/
theorem Meets.append {C : σ → α → Prop} {s t : σ} {as bs : List α} (h : M.Meets C s as)
    (hrun : M.run s as = some t) (hrest : M.Meets C t bs) : M.Meets C s (as ++ bs) := by
  induction as generalizing s with
  | nil =>
    cases hrun
    exact hrest
  | cons a as ih =>
    obtain ⟨s', hs', hrun'⟩ := run_cons_eq_some.mp hrun
    obtain ⟨hC, hCrest⟩ := h.of_cons hs'
    refine .cons hC fun u hu => ?_
    obtain rfl := Option.some.inj (hs'.symm.trans hu)
    exact ih hCrest hrun'

/-- A guard that allows some actions in every state is met by every play of such actions. -/
theorem meets_of_forall {C : σ → α → Prop} {as : List α} (h : ∀ a ∈ as, ∀ s, C s a) (s : σ) :
    M.Meets C s as := by
  induction as generalizing s with
  | nil => trivial
  | cons a as ih =>
    have hrest := ih fun b hb => h b (List.mem_cons_of_mem a hb)
    refine ⟨h a List.mem_cons_self s, ?_⟩
    cases M.step s a with
    | none => trivial
    | some s' => exact hrest s'

theorem meets_true (s : σ) (as : List α) : M.Meets (fun _ _ => True) s as :=
  meets_of_forall (fun _ _ _ => trivial) s

/-- Some play from `s` to `t` under the guard `C` of which the actions `os` are seen. -/
def Observes {ω : Type*} (M : Machine σ α) (C : σ → α → Prop) (view : α → Option ω) (s : σ)
    (os : List ω) (t : σ) : Prop :=
  ∃ as, M.run s as = some t ∧ M.Meets C s as ∧ as.filterMap view = os

section

variable {ω : Type*} {C : σ → α → Prop} {view : α → Option ω} {s s' t u : σ} {a : α} {o : ω}
  {os os' : List ω}

theorem Observes.refl (s : σ) : M.Observes C view s [] s := ⟨[], rfl, trivial, rfl⟩

theorem Observes.trans (hst : M.Observes C view s os t) (htu : M.Observes C view t os' u) :
    M.Observes C view s (os ++ os') u := by
  obtain ⟨as, hrun, hmeets, rfl⟩ := hst
  obtain ⟨bs, hrun', hmeets', rfl⟩ := htu
  refine ⟨as ++ bs, ?_, hmeets.append hrun hmeets', List.filterMap_append⟩
  rw [run_append, hrun]
  exact hrun'

/-- A step that is not seen. -/
theorem Observes.hidden (hview : view a = none) (hstep : M.step s a = some s') (hC : C s a)
    (h : M.Observes C view s' os t) : M.Observes C view s os t := by
  obtain ⟨as, hrun, hmeets, rfl⟩ := h
  refine ⟨a :: as, run_cons hstep hrun, .cons hC fun u hu => ?_,
    List.filterMap_cons_none hview⟩
  obtain rfl := Option.some.inj (hstep.symm.trans hu)
  exact hmeets

/-- A step that is seen. -/
theorem Observes.seen (hview : view a = some o) (hstep : M.step s a = some s') (hC : C s a)
    (h : M.Observes C view s' os t) : M.Observes C view s (o :: os) t := by
  obtain ⟨as, hrun, hmeets, rfl⟩ := h
  refine ⟨a :: as, run_cons hstep hrun, .cons hC fun u hu => ?_,
    List.filterMap_cons_some hview⟩
  obtain rfl := Option.some.inj (hstep.symm.trans hu)
  exact hmeets

/-- A play of which nothing is to be seen. -/
theorem Reaches.observes (h : M.Reaches s t) :
    M.Observes (fun _ _ => True) (fun _ => (none : Option ω)) s [] t := by
  obtain ⟨as, hrun⟩ := h
  exact ⟨as, hrun, meets_true s as, List.filterMap_eq_nil_iff.mpr fun _ _ => rfl⟩

theorem Observes.reaches (h : M.Observes C view s os t) : M.Reaches s t := by
  obtain ⟨as, hrun, -, -⟩ := h
  exact ⟨as, hrun⟩

end

/-- **Simulation.** If every step of `M` is answered by a play of `N` that keeps to the guard,
    shows what the step shows and restores the relation `R`, then so is every play. -/
theorem simulated_run {τ β ω : Type*} {N : Machine τ β} {C : τ → β → Prop}
    {S : α → Option ω} {view : β → Option ω} {R : σ → τ → Prop}
    (hstep : ∀ s a s' t, M.step s a = some s' → R s t →
      ∃ t', N.Observes C view t (S a).toList t' ∧ R s' t')
    {s s' : σ} {t : τ} {as : List α} (hrun : M.run s as = some s') (hR : R s t) :
    ∃ t', N.Observes C view t (as.filterMap S) t' ∧ R s' t' := by
  induction as generalizing s t with
  | nil =>
    cases hrun
    exact ⟨t, Observes.refl t, hR⟩
  | cons a as ih =>
    obtain ⟨u, hu, hrest⟩ := run_cons_eq_some.mp hrun
    -- The answer to the first step ends in a state related to `u`, where the rest starts.
    obtain ⟨v, hv, hRv⟩ := hstep s a u t hu hR
    obtain ⟨t', ht', hR'⟩ := ih hrest hRv
    have hshown : (a :: as).filterMap S = (S a).toList ++ as.filterMap S := by
      cases h : S a with
      | none => exact List.filterMap_cons_none h
      | some o => exact List.filterMap_cons_some h
    exact ⟨t', hshown ▸ hv.trans ht', hR'⟩

/-- **Run rule.** Let `B` be a bound that a step can only lose (`hback`), and let every
    step that the guard allows and that ends within the bound keep `I`.  Then a guarded
    play that ends within the bound ends in `I`. -/
theorem guarded_bounded_run {C : σ → α → Prop} {B I : σ → Prop}
    (hback : ∀ s a s', M.step s a = some s' → B s' → B s)
    (hstep : ∀ s a s', I s → C s a → M.step s a = some s' → B s' → I s')
    {s t : σ} {as : List α} (hs : I s) (hC : M.Meets C s as) (hrun : M.run s as = some t)
    (hB : B t) : I t := by
  -- The bound of every later state is read backwards from the last one.
  have hreads : ∀ (as : List α) (u : σ), M.run u as = some t → B u := by
    intro as
    induction as with
    | nil => intro u hu; cases hu; exact hB
    | cons a as ih =>
      intro u hu
      obtain ⟨u', hu', hrest⟩ := run_cons_eq_some.mp hu
      exact hback u a u' hu' (ih u' hrest)
  induction as generalizing s with
  | nil => cases hrun; exact hs
  | cons a as ih =>
    obtain ⟨s', hs', hrest⟩ := run_cons_eq_some.mp hrun
    obtain ⟨hCs, hCrest⟩ := hC.of_cons hs'
    exact ih (hstep s a s' hs hCs hs' (hreads as s' hrest)) hCrest hrest

/-- An invariant that guarded steps keep holds after every guarded play. -/
theorem guarded_run {C : σ → α → Prop} {I : σ → Prop}
    (hstep : ∀ s a s', I s → C s a → M.step s a = some s' → I s')
    {s t : σ} {as : List α} (hs : I s) (hC : M.Meets C s as) (hrun : M.run s as = some t) :
    I t :=
  guarded_bounded_run (B := fun _ => True) (fun _ _ _ _ _ => trivial)
    (fun s a s' hI hCs hs' _ => hstep s a s' hI hCs hs') hs hC hrun trivial

/-- An invariant that every step keeps holds after every play. -/
theorem invariant_run {I : σ → Prop} (hstep : ∀ s a s', I s → M.step s a = some s' → I s')
    {s t : σ} {as : List α} (hs : I s) (hrun : M.run s as = some t) : I t :=
  guarded_run (fun s a s' hI _ hs' => hstep s a s' hI hs') hs (meets_true s as) hrun

/-- **History rule.** A relation between the actions of a play and its last state. -/
theorem history_run {P : List α → σ → Prop} {s : σ} (hnil : P [] s)
    (hsnoc : ∀ as t a t', P as t → M.step t a = some t' → P (as ++ [a]) t')
    {as : List α} {t : σ} (hrun : M.run s as = some t) : P as t := by
  induction as using List.reverseRecOn generalizing t with
  | nil => cases hrun; exact hnil
  | append_singleton as a ih =>
    rw [run_append] at hrun
    obtain ⟨u, hu, hlast⟩ := Option.bind_eq_some_iff.mp hrun
    obtain ⟨t', ht', hend⟩ := run_cons_eq_some.mp hlast
    cases hend
    exact hsnoc as u a t (ih hu) ht'

/-- A guard that an invariant implies is met by every guarded play that starts in the
    invariant: one guard may be traded for another. -/
theorem meets_of_invariant {C D : σ → α → Prop} {I : σ → Prop}
    (hstep : ∀ s a s', I s → C s a → M.step s a = some s' → I s')
    (hguard : ∀ s a, I s → C s a → D s a)
    {s : σ} {as : List α} (hs : I s) (hC : M.Meets C s as) : M.Meets D s as := by
  induction as generalizing s with
  | nil => trivial
  | cons a as ih =>
    cases hs' : M.step s a with
    | none =>
      simp only [Meets, hs'] at hC ⊢
      exact ⟨hguard s a hs hC.1, trivial⟩
    | some s' =>
      obtain ⟨hCs, hCrest⟩ := hC.of_cons hs'
      simp only [Meets, hs']
      exact ⟨hguard s a hs hCs, ih (hstep s a s' hs hCs hs') hCrest⟩

/-- If breaking the guard leaves a mark `D` that no later step removes, a play either meets
    the guard or ends marked. -/
theorem meets_or_marked {C : σ → α → Prop} {I D : σ → Prop}
    (hstep : ∀ s a s', I s → M.step s a = some s' → I s')
    (hbreak : ∀ s a s', I s → ¬ C s a → M.step s a = some s' → D s')
    (hkeep : ∀ s a s', D s → M.step s a = some s' → D s')
    {s t : σ} {as : List α} (hs : I s) (hrun : M.run s as = some t) : M.Meets C s as ∨ D t := by
  induction as generalizing s with
  | nil => exact Or.inl trivial
  | cons a as ih =>
    obtain ⟨s', hs', hrest⟩ := run_cons_eq_some.mp hrun
    -- The first step that breaks the guard leaves the mark, and the rest of the play keeps it.
    by_cases hC : C s a
    · rcases ih (hstep s a s' hs hs') hrest with hmeets | hD
      · simp only [Meets, hs']
        exact Or.inl ⟨hC, hmeets⟩
      · exact Or.inr hD
    · exact Or.inr (invariant_run hkeep (hbreak s a s' hs hC hs') hrest)

end Machine

end Lib

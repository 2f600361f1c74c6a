import ThriftBench.Lib.Connections
import ThriftBench.Lib.Processes

namespace Lib

open PerConnection

/-!
# Servers without a wire

A request is answered at once.  What a server keeps is left open: one handler for all
connections, or one for each.

* `Backend` and `Backend.machine` — the server, and its runs;
* `PerConnection.backend` — a handler for every connection: the runs are those of
  `PerConnection.machine`;
* `Backend.Answering` — what is known of a reply from its request, whatever the server keeps;
* `Backend.sum` — requests of two kinds; `Backend.run_sum` — those of a kind that the server
  does not notice may be left out of a run.
-/

/-- What a server does.  `none` is what the code leaves without a defined behaviour. -/
structure Backend (σ α β : Type) where
  /-- A new connection. -/
  accept : σ → Option σ
  /-- A request on connection `k`, and the reply. -/
  serve : Nat → σ → α → Option (β × σ)

namespace Backend

variable {σ α β : Type}

/-- The server, its connections, and the replies so far, oldest first, each with its
    connection. -/
structure State (σ β : Type) where
  state : σ
  connections : Nat := 0
  replies : List (Nat × β) := []
  /-- The last event has no defined behaviour. -/
  undefined : Bool := false

/-- The runs of the server; a request needs an open connection. -/
def machine (B : Backend σ α β) : Machine (State σ β) (Event α) where
  step s e :=
    if s.undefined = true then
      none
    else
      match e with
      | .connect =>
        match B.accept s.state with
        | none   => some { s with undefined := true }
        | some b => some { s with state := b, connections := s.connections + 1 }
      | .request k x =>
        if k < s.connections then
          match B.serve k s.state x with
          | none        => some { s with undefined := true }
          | some (y, b) => some { s with state := b, replies := s.replies ++ [(k, y)] }
        else
          none

variable {B : Backend σ α β} {b : σ} {es : List (Event α)} {s s' : State σ β}

/-- **Step.** What an event does. -/
theorem machine_step_cases {e : Event α} (h : B.machine.step s e = some s') :
    s.undefined = false ∧
      ((∃ b, e = .connect ∧ B.accept s.state = some b ∧
          s' = { s with state := b, connections := s.connections + 1 }) ∨
        (∃ k x y b, e = .request k x ∧ k < s.connections ∧ B.serve k s.state x = some (y, b) ∧
          s' = { s with state := b, replies := s.replies ++ [(k, y)] }) ∨
        (e = .connect ∧ B.accept s.state = none ∧ s' = { s with undefined := true }) ∨
        (∃ k x, e = .request k x ∧ k < s.connections ∧ B.serve k s.state x = none ∧
          s' = { s with undefined := true })) := by
  unfold machine at h
  by_cases hundefined : s.undefined = true
  · simp [hundefined] at h
  · refine ⟨Bool.eq_false_iff.mpr hundefined, ?_⟩
    simp only [if_neg hundefined] at h
    cases e with
    | connect =>
      cases haccept : B.accept s.state with
      | none =>
        simp only [haccept, Option.some.injEq] at h
        exact Or.inr (Or.inr (Or.inl ⟨rfl, rfl, h.symm⟩))
      | some b =>
        simp only [haccept, Option.some.injEq] at h
        exact Or.inl ⟨b, rfl, rfl, h.symm⟩
    | request k x =>
      by_cases hk : k < s.connections
      · simp only [if_pos hk] at h
        cases hserve : B.serve k s.state x with
        | none =>
          simp only [hserve, Option.some.injEq] at h
          exact Or.inr (Or.inr (Or.inr ⟨k, x, rfl, hk, hserve, h.symm⟩))
        | some r =>
          simp only [hserve, Option.some.injEq] at h
          exact Or.inr (Or.inl ⟨k, x, r.1, r.2, rfl, hk, hserve, h.symm⟩)
      · simp [if_neg hk] at h

/-- Nothing happens on a connection before it is opened. -/
theorem unopened_of_run (hrun : B.machine.run { state := b } es = some s) :
    ∀ k, s.connections ≤ k → requestsOn k es = [] ∧ repliesOn k s.replies = [] := by
  refine Machine.history_run (P := fun es s => ∀ k, s.connections ≤ k →
    requestsOn k es = [] ∧ repliesOn k s.replies = []) (fun _ _ => ⟨rfl, rfl⟩) ?_ hrun
  intro es s e s' hI hstep k hk
  obtain ⟨-, hcases⟩ := machine_step_cases hstep
  rcases hcases with ⟨b, rfl, -, rfl⟩ | ⟨j, x, y, b, rfl, hj, -, rfl⟩ | ⟨rfl, -, rfl⟩ |
    ⟨j, x, rfl, hj, -, rfl⟩
  · rw [requestsOn_concat_connect]
    exact hI k (Nat.le_of_succ_le hk)
  · -- The request is on an open connection, which `k` is not.
    have hother : j ≠ k := Nat.ne_of_lt (Nat.lt_of_lt_of_le hj hk)
    rw [requestsOn_concat_other hother, repliesOn_concat_other hother]
    exact hI k hk
  · rw [requestsOn_concat_connect]
    exact hI k hk
  · rw [requestsOn_concat_other (Nat.ne_of_lt (Nat.lt_of_lt_of_le hj hk))]
    exact hI k hk

/-- No request has two replies. -/
theorem length_repliesOn_le (hrun : B.machine.run { state := b } es = some s) (k : Nat) :
    (repliesOn k s.replies).length ≤ (requestsOn k es).length := by
  refine Machine.history_run (P := fun es s =>
    (repliesOn k s.replies).length ≤ (requestsOn k es).length) ?_ ?_ hrun
  · exact Nat.le_refl 0
  intro es s e s' hle hstep
  obtain ⟨-, hcases⟩ := machine_step_cases hstep
  rcases hcases with ⟨b, rfl, -, rfl⟩ | ⟨j, x, y, b, rfl, -, -, rfl⟩ | ⟨rfl, -, rfl⟩ |
    ⟨j, x, rfl, -, -, rfl⟩
  · rw [requestsOn_concat_connect]
    exact hle
  · by_cases hjk : j = k
    · subst hjk
      rw [requestsOn_concat_request, repliesOn_concat, List.length_append, List.length_append]
      exact Nat.add_le_add_right hle 1
    · rw [requestsOn_concat_other hjk, repliesOn_concat_other hjk]
      exact hle
  · rw [requestsOn_concat_connect]
    exact hle
  · by_cases hjk : j = k
    · subst hjk
      rw [requestsOn_concat_request, List.length_append]
      exact Nat.le_add_right_of_le hle
    · rw [requestsOn_concat_other hjk]
      exact hle

end Backend

/-! ### A handler for every connection -/

namespace PerConnection

variable {φ η ι ρ : Type} {S : PerConnection φ η ι ρ} {factory : φ} {es : List (Event ι)}

/-- The factory and the handlers, as what a server keeps. -/
def backend (S : PerConnection φ η ι ρ) : Backend (φ × List η) ι ρ where
  accept b := (S.getHandler b.1).map fun r => (r.2, b.2 ++ [r.1])
  serve k b x := b.2[k]?.bind fun h => (S.serve h x).map fun r => (r.1, (b.1, b.2.set k r.2))

/-- The same state of the server with a handler for every connection. -/
def ofBackend (t : Backend.State (φ × List η) ρ) : State φ η ρ :=
  ⟨t.state.1, t.state.2, t.replies, t.undefined⟩

/-- **Step.** The step of the server with a handler for every connection. -/
theorem step_backend {t t' : Backend.State (φ × List η) ρ} {e : Event ι}
    (hlength : t.connections = t.state.2.length) (h : S.backend.machine.step t e = some t') :
    S.machine.step (ofBackend t) e = some (ofBackend t') ∧
      t'.connections = t'.state.2.length := by
  obtain ⟨hdefined, hcases⟩ := Backend.machine_step_cases h
  have hopen : ¬ (ofBackend t).undefined = true := by
    show ¬ t.undefined = true
    rw [hdefined]
    decide
  rcases hcases with ⟨b, rfl, haccept, rfl⟩ | ⟨k, x, y, b, rfl, hk, hserve, rfl⟩ |
    ⟨rfl, haccept, rfl⟩ | ⟨k, x, rfl, hk, hserve, rfl⟩
  · obtain ⟨r, hr, rfl⟩ := Option.map_eq_some_iff.mp haccept
    refine ⟨?_, by simp [hlength]⟩
    have hmake : S.getHandler (ofBackend t).factory = some r := hr
    simp only [machine, if_neg hopen, hmake]
    rfl
  · obtain ⟨handler, hh, hmap⟩ := Option.bind_eq_some_iff.mp hserve
    obtain ⟨r, hr, heq⟩ := Option.map_eq_some_iff.mp hmap
    obtain ⟨rfl, rfl⟩ := Prod.mk.inj heq
    refine ⟨?_, by simp [hlength]⟩
    have hhandler : (ofBackend t).handlers[k]? = some handler := hh
    simp only [machine, if_neg hopen, hhandler, hr]
    rfl
  · have hmake : S.getHandler (ofBackend t).factory = none := Option.map_eq_none_iff.mp haccept
    refine ⟨?_, hlength⟩
    simp only [machine, if_neg hopen, hmake]
    rfl
  · rw [hlength] at hk
    have hh : t.state.2[k]? = some (t.state.2[k]) := List.getElem?_eq_getElem hk
    have hnone : S.serve (t.state.2[k]) x = none := by
      have hbind : (t.state.2[k]?.bind fun h =>
        (S.serve h x).map fun r => (r.1, (t.state.1, t.state.2.set k r.2))) = none := hserve
      rw [hh] at hbind
      exact Option.map_eq_none_iff.mp hbind
    refine ⟨?_, hlength⟩
    have hhandler : (ofBackend t).handlers[k]? = some (t.state.2[k]) := hh
    simp only [machine, if_neg hopen, hhandler, hnone]
    rfl

/-- **Run.** The runs are those of the server with a handler for every connection. -/
theorem run_backend {t : Backend.State (φ × List η) ρ}
    (hrun : S.backend.machine.run { state := (factory, []) } es = some t) :
    S.machine.run { factory := factory } es = some (ofBackend t) ∧
      t.connections = t.state.2.length := by
  refine Machine.history_run (P := fun es t => S.machine.run { factory := factory } es
    = some (ofBackend t) ∧ t.connections = t.state.2.length) ⟨rfl, rfl⟩ ?_ hrun
  rintro es t e t' ⟨hrun, hlength⟩ hstep
  obtain ⟨hmachine, hlength'⟩ := step_backend hlength hstep
  exact ⟨Machine.run_concat hrun hmachine, hlength'⟩

/-- What a handler knows of the requests on its connection. -/
structure Remembers (S : PerConnection φ η ι ρ) (I : η → List ι → Prop) : Prop where
  getHandler : ∀ {factory h factory'}, S.getHandler factory = some (h, factory') → I h []
  serve : ∀ {h xs x y h'}, I h xs → S.serve h x = some (y, h') → I h' (xs ++ [x])

/-- **Run.** It knows the same in every run. -/
theorem Remembers.of_run {I : η → List ι → Prop} (hI : S.Remembers I) {s : State φ η ρ}
    (hrun : S.machine.run { factory := factory } es = some s) (hdefined : s.undefined = false)
    {k : Nat} {h : η} (hk : s.handlers[k]? = some h) : I h (requestsOn k es) := by
  -- With the connections that are still to come: nothing was requested on them.
  have hall := Machine.history_run (P := fun es (s : State φ η ρ) => s.undefined = false →
    (∀ k, s.handlers.length ≤ k → requestsOn k es = []) ∧
      ∀ (k : Nat) h, s.handlers[k]? = some h → I h (requestsOn k es))
    (fun _ => ⟨fun _ _ => rfl, fun k h hk => absurd hk (by simp)⟩) ?_ hrun
  · exact (hall hdefined).2 k h hk
  intro es s e s' hprev hstep hdefined'
  obtain ⟨hdefined, hcases⟩ := machine_step_cases hstep
  obtain ⟨hunopened, hknown⟩ := hprev hdefined
  rcases hcases with ⟨handler, factory', rfl, hmake, rfl⟩ |
    ⟨j, x, handler, y, handler', rfl, hj, hserve, rfl⟩ | ⟨-, -, rfl⟩ | ⟨-, -, -, -, -, -, rfl⟩
  · simp only [requestsOn_concat_connect]
    refine ⟨fun k hk => hunopened k ?_, fun k h hk => ?_⟩
    · rw [List.length_append, List.length_singleton] at hk
      exact Nat.le_of_succ_le hk
    · rcases getElem?_concat_cases hk with hold | ⟨rfl, rfl⟩
      · exact hknown k h hold
      · -- The handler is new, and so is its connection.
        rw [hunopened _ (Nat.le_refl _)]
        exact hI.getHandler hmake
  · have hlt := (List.getElem?_eq_some_iff.mp hj).1
    refine ⟨fun k hk => ?_, fun k h hk => ?_⟩
    · rw [List.length_set] at hk
      rw [requestsOn_concat_other (Nat.ne_of_lt (Nat.lt_of_lt_of_le hlt hk))]
      exact hunopened k hk
    · by_cases hjk : j = k
      · subst hjk
        rw [List.getElem?_set_self hlt] at hk
        rw [requestsOn_concat_request, ← Option.some.inj hk]
        exact hI.serve (hknown j handler hj) hserve
      · rw [List.getElem?_set_ne hjk] at hk
        rw [requestsOn_concat_other hjk]
        exact hknown k h hk
  · exact absurd hdefined' (by simp)
  · exact absurd hdefined' (by simp)

end PerConnection

/-! ### What is known of a reply -/

theorem getElem?_of_prefix {κ : Type} {xs ys : List κ} {i : Nat} {x : κ} (h : xs <+: ys)
    (hi : xs[i]? = some x) : ys[i]? = some x := by
  obtain ⟨hlt, rfl⟩ := List.getElem?_eq_some_iff.mp hi
  exact List.prefix_iff_getElem?.mp h i hlt

theorem length_le_of_prefix_map {κ ξ : Type} {f : κ → ξ} {xs : List ξ} {ys : List κ}
    (h : xs <+: ys.map f) : xs.length ≤ ys.length := by
  have hle := h.length_le
  rwa [List.length_map] at hle

namespace Backend

variable {σ α β : Type} {B : Backend σ α β} {b : σ} {es : List (Event α)} {s : State σ β}

/-- What the server keeps has no bearing on what is known of a reply, or of a request that has
    none. -/
structure Answering (B : Backend σ α β) (Answers : α → β → Prop) (Refused : α → Prop) :
    Prop where
  accept : ∀ b, ∃ b', B.accept b = some b'
  answers : ∀ {k b x y b'}, B.serve k b x = some (y, b') → Answers x y
  refused : ∀ {k b x}, B.serve k b x = none → Refused x

/-- A server that keeps nothing. -/
def ofReply (reply : α → Option β) : Backend Unit α β where
  accept _ := some ()
  serve _ _ x := (reply x).map fun y => (y, ())

theorem ofReply_answering (reply : α → Option β) :
    (ofReply reply).Answering (fun x y => reply x = some y) fun x => reply x = none where
  accept _ := ⟨(), rfl⟩
  answers hserve := by
    obtain ⟨y, hy, heq⟩ := Option.map_eq_some_iff.mp hserve
    exact hy.trans (congrArg some (Prod.mk.inj heq).1)
  refused hserve := Option.map_eq_none_iff.mp hserve

/-- A server that counts its requests, and whose reply to the `n`-th is `reply n`. -/
def ofReplies (reply : Nat → α → Option β) : Backend Nat α β where
  accept n := some n
  serve _ n x := (reply n x).map fun y => (y, n + 1)

theorem ofReplies_answering (reply : Nat → α → Option β) :
    (ofReplies reply).Answering (fun x y => ∃ n, reply n x = some y)
      fun x => ∃ n, reply n x = none where
  accept n := ⟨n, rfl⟩
  answers {_ n _ _ _} hserve := by
    obtain ⟨y, hy, heq⟩ := Option.map_eq_some_iff.mp hserve
    exact ⟨n, hy.trans (congrArg some (Prod.mk.inj heq).1)⟩
  refused {_ n _} hserve := ⟨n, Option.map_eq_none_iff.mp hserve⟩

/-- The replies so far answer the requests, and only the last request may have none. -/
structure Answered (Answers : α → β → Prop) (Refused : α → Prop) (es : List (Event α))
    (s : State σ β) : Prop where
  replies : ∀ k, ∃ xs, xs <+: requestsOn k es ∧ List.Forall₂ Answers xs (repliesOn k s.replies)
  all : s.undefined = false → ∀ k, List.Forall₂ Answers (requestsOn k es) (repliesOn k s.replies)
  unreplied : s.undefined = true → ∃ k, ∃ x ∈ requestsOn k es, Refused x

variable {Answers : α → β → Prop} {Refused : α → Prop}

/-- While nothing is undefined, all requests have had their replies. -/
theorem Answered.of_all (hdefined : s.undefined = false)
    (h : ∀ k, List.Forall₂ Answers (requestsOn k es) (repliesOn k s.replies)) :
    Answered Answers Refused es s where
  replies k := ⟨_, List.prefix_rfl, h k⟩
  all _ := h
  unreplied hundefined := absurd (hundefined.symm.trans hdefined) (by simp)

/-- **Run.** In every run, the replies answer the requests. -/
theorem Answering.answered_of_run (h : B.Answering Answers Refused)
    (hrun : B.machine.run { state := b } es = some s) : Answered Answers Refused es s := by
  refine Machine.history_run (P := Answered Answers Refused) (.of_all rfl fun _ => .nil) ?_ hrun
  intro es s e s' hI hstep
  obtain ⟨hdefined, hcases⟩ := machine_step_cases hstep
  have hall := hI.all hdefined
  rcases hcases with ⟨b, rfl, -, rfl⟩ | ⟨j, x, y, b, rfl, -, hserve, rfl⟩ |
    ⟨rfl, haccept, rfl⟩ | ⟨j, x, rfl, -, hserve, rfl⟩
  · refine .of_all hdefined fun k => ?_
    rw [requestsOn_concat_connect]
    exact hall k
  · refine .of_all hdefined fun k => ?_
    by_cases hjk : j = k
    · subst hjk
      rw [requestsOn_concat_request, repliesOn_concat]
      exact List.rel_append (hall j) (.cons (h.answers hserve) .nil)
    · rw [requestsOn_concat_other hjk, repliesOn_concat_other hjk]
      exact hall k
  · obtain ⟨b', haccepted⟩ := h.accept s.state
    exact absurd (haccept.symm.trans haccepted) (by simp)
  · -- The last request of the run, and the only one without a reply.
    refine ⟨fun k => ?_, fun hfalse => absurd hfalse (by simp),
      fun _ => ⟨j, x, ?_, h.refused hserve⟩⟩
    · by_cases hjk : j = k
      · subst hjk
        rw [requestsOn_concat_request]
        exact ⟨_, List.prefix_append _ _, hall j⟩
      · rw [requestsOn_concat_other hjk]
        exact ⟨_, List.prefix_rfl, hall k⟩
    · rw [requestsOn_concat_request]
      exact List.mem_append_right _ List.mem_cons_self

/-- The `i`-th reply answers the `i`-th request. -/
theorem Answered.getElem? (h : Answered Answers Refused es s) {k i : Nat} {y : β}
    (hi : (repliesOn k s.replies)[i]? = some y) :
    ∃ x, (requestsOn k es)[i]? = some x ∧ Answers x y := by
  obtain ⟨xs, hprefix, hanswers⟩ := h.replies k
  obtain ⟨hlt, rfl⟩ := List.getElem?_eq_some_iff.mp hi
  have hlt' : i < xs.length := hanswers.length_eq ▸ hlt
  exact ⟨xs[i], getElem?_of_prefix hprefix (List.getElem?_eq_getElem hlt'),
    hanswers.get hlt' hlt⟩

/-! ### Requests of two kinds -/

variable {α' β' : Type} {B' : Backend σ α' β'}

/-- A server that takes the requests of two. -/
def sum (B : Backend σ α β) (B' : Backend σ α' β') : Backend σ (α ⊕ α') (β ⊕ β') where
  accept := B.accept
  serve k b
    | .inl x => (B.serve k b x).map fun r => (.inl r.1, r.2)
    | .inr x => (B'.serve k b x).map fun r => (.inr r.1, r.2)

theorem Answering.sum {Answers : α → β → Prop} {Answers' : α' → β' → Prop} {Refused : α → Prop}
    {Refused' : α' → Prop} (h : B.Answering Answers Refused)
    (h' : B'.Answering Answers' Refused') :
    (B.sum B').Answering (Sum.LiftRel Answers Answers') (Sum.elim Refused Refused') where
  accept := h.accept
  answers {_ _ x _ _} hserve := by
    cases x with
    | inl x =>
      obtain ⟨r, hr, heq⟩ := Option.map_eq_some_iff.mp hserve
      obtain ⟨rfl, -⟩ := Prod.mk.inj heq
      exact .inl (h.answers hr)
    | inr x =>
      obtain ⟨r, hr, heq⟩ := Option.map_eq_some_iff.mp hserve
      obtain ⟨rfl, -⟩ := Prod.mk.inj heq
      exact .inr (h'.answers hr)
  refused {_ _ x} hserve := by
    cases x with
    | inl x => exact h.refused (Option.map_eq_none_iff.mp hserve)
    | inr x => exact h'.refused (Option.map_eq_none_iff.mp hserve)

/-- Every request has a reply, and changes nothing. -/
def Passive (B : Backend σ α β) : Prop := ∀ k b x, ∃ y, B.serve k b x = some (y, b)

/-- Requests that are answered and change nothing. -/
def unnoticed (accept : σ → Option σ) : Backend σ Unit Unit where
  accept := accept
  serve _ b _ := some ((), b)

theorem unnoticed_passive (accept : σ → Option σ) : (unnoticed accept).Passive :=
  fun _ _ _ => ⟨(), rfl⟩

theorem unnoticed_answering {accept : σ → Option σ} (h : ∀ b, ∃ b', accept b = some b') :
    (unnoticed accept).Answering (fun _ _ => True) fun _ => False where
  accept := h
  answers _ := trivial
  refused hserve := absurd hserve (Option.some_ne_none _)

/-- The events without the requests of the second kind. -/
def leftEvents (es : List (Event (α ⊕ α'))) : List (Event α) :=
  es.filterMap fun
    | .connect            => some .connect
    | .request k (.inl x) => some (.request k x)
    | .request _ (.inr _) => none

/-- The replies of the first kind. -/
def leftReplies (replies : List (Nat × (β ⊕ β'))) : List (Nat × β) :=
  replies.filterMap fun r => r.2.getLeft?.map fun y => (r.1, y)

theorem filterMap_getLeft?_map {κ κ' ξ ξ' : Type} (f : κ → ξ) (g : κ' → ξ')
    (xs : List (κ ⊕ κ')) :
    (xs.map (Sum.map f g)).filterMap Sum.getLeft? = (xs.filterMap Sum.getLeft?).map f := by
  rw [List.filterMap_map, List.map_filterMap]
  refine congrArg (List.filterMap · xs) (funext fun x => ?_)
  cases x with
  | inl | inr => rfl

theorem requestsOn_leftEvents (k : Nat) (es : List (Event (α ⊕ α'))) :
    requestsOn k (leftEvents es) = (requestsOn k es).filterMap Sum.getLeft? := by
  unfold requestsOn leftEvents
  rw [List.filterMap_filterMap, List.filterMap_filterMap]
  refine congrArg (List.filterMap · es) (funext fun e => ?_)
  rcases e with _ | ⟨j, x | x⟩
  · rfl
  · by_cases hjk : j = k <;> simp [hjk]
  · by_cases hjk : j = k <;> simp [hjk]

theorem repliesOn_leftReplies (k : Nat) (replies : List (Nat × (β ⊕ β'))) :
    repliesOn k (leftReplies replies) = (repliesOn k replies).filterMap Sum.getLeft? := by
  unfold repliesOn leftReplies
  rw [List.filterMap_filterMap, List.filterMap_filterMap]
  refine congrArg (List.filterMap · replies) (funext fun r => ?_)
  obtain ⟨j, y | y⟩ := r
  · by_cases hjk : j = k <;> simp [hjk]
  · by_cases hjk : j = k <;> simp [hjk]

/-- **Run.** The requests that the server does not notice may be left out. -/
theorem run_sum {es : List (Event (α ⊕ α'))} {t : State σ (β ⊕ β')} (h : B'.Passive)
    (hrun : (B.sum B').machine.run { state := b } es = some t) :
    B.machine.run { state := b } (leftEvents es)
      = some ⟨t.state, t.connections, leftReplies t.replies, t.undefined⟩ := by
  refine Machine.history_run (P := fun es t => B.machine.run { state := b } (leftEvents es)
    = some ⟨t.state, t.connections, leftReplies t.replies, t.undefined⟩) rfl ?_ hrun
  intro es t e t' hI hstep
  obtain ⟨hdefined, hcases⟩ := machine_step_cases hstep
  have hevents : ∀ e, leftEvents (es ++ [e]) = leftEvents es ++ leftEvents [e] :=
    fun _ => List.filterMap_append
  have hreplies : ∀ r, leftReplies (t.replies ++ [r]) = leftReplies t.replies ++ leftReplies [r] :=
    fun _ => List.filterMap_append
  rcases hcases with ⟨b', rfl, haccept, rfl⟩ | ⟨k, x | x, y, b', rfl, hk, hserve, rfl⟩ |
    ⟨rfl, haccept, rfl⟩ | ⟨k, x | x, rfl, hk, hserve, rfl⟩
  · rw [hevents]
    apply Machine.run_concat hI
    have haccept' : B.accept t.state = some b' := haccept
    simp [machine, hdefined, haccept']
  · obtain ⟨r, hr, heq⟩ := Option.map_eq_some_iff.mp hserve
    obtain ⟨rfl, rfl⟩ := Prod.mk.inj heq
    rw [hevents, hreplies]
    apply Machine.run_concat hI
    simp [machine, hdefined, hk, hr, leftReplies]
  · -- A request of the second kind leaves no trace.
    obtain ⟨z, hz⟩ := h k t.state x
    obtain ⟨r, hr, heq⟩ := Option.map_eq_some_iff.mp hserve
    obtain rfl := Option.some.inj (hz.symm.trans hr)
    obtain ⟨rfl, rfl⟩ := Prod.mk.inj heq
    rw [hevents, hreplies]
    show B.machine.run _ (leftEvents es ++ []) = some ⟨_, _, leftReplies t.replies ++ [], _⟩
    rw [List.append_nil, List.append_nil]
    exact hI
  · rw [hevents]
    apply Machine.run_concat hI
    have haccept' : B.accept t.state = none := haccept
    simp [machine, hdefined, haccept']
  · have hnone : B.serve k t.state x = none := Option.map_eq_none_iff.mp hserve
    rw [hevents]
    apply Machine.run_concat hI
    simp [machine, hdefined, hk, hnone]
  · -- One of the second kind is never without a reply.
    obtain ⟨z, hz⟩ := h k t.state x
    have hnone : B'.serve k t.state x = none := Option.map_eq_none_iff.mp hserve
    exact absurd (hnone.symm.trans hz) (by simp)

/-- **Run.** A request of a kind has a reply of that kind, and only one that is undefined has
    none. -/
theorem kinds_of_run_sum {es : List (Event (α ⊕ α'))} {t : State σ (β ⊕ β')}
    (hrun : (B.sum B').machine.run { state := b } es = some t) (k : Nat) :
    (repliesOn k t.replies).map Sum.isLeft <+: (requestsOn k es).map Sum.isLeft ∧
      (t.undefined = false →
        (repliesOn k t.replies).map Sum.isLeft = (requestsOn k es).map Sum.isLeft) := by
  refine Machine.history_run (P := fun es (t : State σ (β ⊕ β')) =>
    (repliesOn k t.replies).map Sum.isLeft <+: (requestsOn k es).map Sum.isLeft ∧
      (t.undefined = false →
        (repliesOn k t.replies).map Sum.isLeft = (requestsOn k es).map Sum.isLeft))
    ⟨List.prefix_rfl, fun _ => rfl⟩ ?_ hrun
  rintro es t e t' ⟨-, hsame⟩ hstep
  obtain ⟨hdefined, hcases⟩ := machine_step_cases hstep
  have heq := hsame hdefined
  rcases hcases with ⟨b', rfl, -, rfl⟩ | ⟨j, x, y, b', rfl, -, hserve, rfl⟩ | ⟨rfl, -, rfl⟩ |
    ⟨j, x, rfl, -, -, rfl⟩
  · rw [requestsOn_concat_connect]
    exact ⟨heq ▸ List.prefix_rfl, fun _ => heq⟩
  · have hkind : Sum.isLeft y = Sum.isLeft x := by
      cases x with
      | inl | inr =>
        obtain ⟨r, -, hr⟩ := Option.map_eq_some_iff.mp hserve
        rw [← (Prod.mk.inj hr).1]
        rfl
    have hnext : (repliesOn k (t.replies ++ [(j, y)])).map Sum.isLeft
        = (requestsOn k (es ++ [.request j x])).map Sum.isLeft := by
      by_cases hjk : j = k
      · subst hjk
        rw [requestsOn_concat_request, repliesOn_concat, List.map_append, List.map_append, heq]
        exact congrArg (_ ++ [·]) hkind
      · rw [requestsOn_concat_other hjk, repliesOn_concat_other hjk]
        exact heq
    exact ⟨hnext ▸ List.prefix_rfl, fun _ => hnext⟩
  · rw [requestsOn_concat_connect]
    exact ⟨heq ▸ List.prefix_rfl, fun hfalse => absurd hfalse (by simp)⟩
  · refine ⟨?_, fun hfalse => absurd hfalse (by simp)⟩
    by_cases hjk : j = k
    · subst hjk
      rw [requestsOn_concat_request, List.map_append, ← heq]
      exact List.prefix_append _ _
    · rw [requestsOn_concat_other hjk]
      exact heq ▸ List.prefix_rfl

end Backend

end Lib

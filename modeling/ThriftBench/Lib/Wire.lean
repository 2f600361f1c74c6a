import ThriftBench.Lib.Backend

namespace Lib

open PerConnection

/-!
# Connections to a server

A `Backend` answers requests at once.  Here the requests come in over connections, which take
their steps in any order; what a connection is and what its steps are is left open.

* `Link` — one direction of a connection;
* `Wiring` — a connection, and what its steps do to it and to the server; `Wiring.machine` —
  connections and server, step by step;
* `Seen` and `Wiring.Keeps` — what a relation between a connection and the requests and replies
  on it has to do with a step;
* `Wiring.Keeps.of_run` — then every run is one of the server alone, and every connection is
  related to what happened on it.
-/

/-- One direction of a connection: `L` is what its reader has received and not yet read, and
    `τ` are the tokens that are sent. -/
structure Link (L τ : Type) where
  empty : L
  /-- A message arrives, or is refused. -/
  send : L → List τ → Option L
  /-- The tokens that are still to be read. -/
  Holds : L → List τ → Prop
  holds_empty : Holds empty []
  holds_send : ∀ {l l' ts ts'}, send l ts' = some l' → Holds l ts → Holds l' (ts ++ ts')

/-- Connections `γ` with the steps `δ`.  A step on connection `k` changes the connection and
    the server, and may have no defined behaviour. -/
structure Wiring (σ γ δ : Type) where
  /-- A new connection. -/
  fresh : γ
  act : Nat → σ → γ → δ → Option (γ × σ × Bool)

namespace Wiring

variable {σ γ δ α β : Type}

/-- The server and the connections. -/
structure State (σ γ : Type) where
  backend : σ
  sessions : List γ := []
  /-- The last step has no defined behaviour. -/
  undefined : Bool := false

/-- A step of the whole system. -/
inductive Action (δ : Type) where
  | connect
  | act (k : Nat) (d : δ)

/-- The runs. -/
def machine (W : Wiring σ γ δ) (B : Backend σ α β) : Machine (State σ γ) (Action δ) where
  step s a :=
    if s.undefined = true then
      none
    else
      match a with
      | .connect =>
        match B.accept s.backend with
        | none   => some { s with undefined := true }
        | some b => some { s with backend := b, sessions := s.sessions ++ [W.fresh] }
      | .act k d =>
        match s.sessions[k]? with
        | none   => none
        | some c => (W.act k s.backend c d).map fun r =>
            { backend := r.2.1, sessions := s.sessions.set k r.1, undefined := r.2.2 }

variable {W : Wiring σ γ δ} {B : Backend σ α β} {s s' : State σ γ} {k : Nat} {b b' : σ}
  {c c' : γ} {d : δ} {undefined : Bool}

/-- **Step.** What a step of the whole system is. -/
theorem machine_step_cases {a : Action δ} (h : (W.machine B).step s a = some s') :
    s.undefined = false ∧
      ((∃ b, a = .connect ∧ B.accept s.backend = some b ∧
          s' = { s with backend := b, sessions := s.sessions ++ [W.fresh] }) ∨
        (a = .connect ∧ B.accept s.backend = none ∧ s' = { s with undefined := true }) ∨
        (∃ k d c c' b undefined, a = .act k d ∧ s.sessions[k]? = some c ∧
          W.act k s.backend c d = some (c', b, undefined) ∧
          s' = { backend := b, sessions := s.sessions.set k c', undefined := undefined })) := by
  unfold machine at h
  by_cases hundefined : s.undefined = true
  · simp [hundefined] at h
  · refine ⟨Bool.eq_false_iff.mpr hundefined, ?_⟩
    simp only [if_neg hundefined] at h
    cases a with
    | connect =>
      cases haccept : B.accept s.backend with
      | none =>
        simp only [haccept, Option.some.injEq] at h
        exact Or.inr (Or.inl ⟨rfl, rfl, h.symm⟩)
      | some b =>
        simp only [haccept, Option.some.injEq] at h
        exact Or.inl ⟨b, rfl, rfl, h.symm⟩
    | act k d =>
      cases hk : s.sessions[k]? with
      | none => simp [hk] at h
      | some c =>
        simp only [hk] at h
        obtain ⟨r, hr, rfl⟩ := Option.map_eq_some_iff.mp h
        exact Or.inr (Or.inr ⟨k, d, c, r.1, r.2.1, r.2.2, rfl, hk, hr, rfl⟩)

theorem step_act (hdefined : s.undefined = false) (hk : s.sessions[k]? = some c)
    (hact : W.act k s.backend c d = some (c', b', undefined)) :
    (W.machine B).step s (.act k d)
      = some { backend := b', sessions := s.sessions.set k c', undefined := undefined } := by
  simp [machine, hdefined, hk, hact]

/-! ### What the server alone sees -/

/-- What the server alone has seen of a step on connection `k`, if connections are related to
    the requests and replies on them by `Agrees`. -/
inductive Seen (B : Backend σ α β) (Agrees : γ → List α → List β → Prop) (k : Nat) (b b' : σ)
    (undefined : Bool) (c' : γ) (requests : List α) (replies : List β) : Prop where
  | nothing (hbackend : b' = b) (hdefined : undefined = false)
      (hagrees : Agrees c' requests replies)
  | request (x : α) (y : β) (hserve : B.serve k b x = some (y, b')) (hdefined : undefined = false)
      (hagrees : Agrees c' (requests ++ [x]) (replies ++ [y]))
  | undefined (x : α) (hserve : B.serve k b x = none) (hbackend : b' = b)
      (hundefined : undefined = true) (hagrees : Agrees c' (requests ++ [x]) replies)

/-- A relation that holds of a new connection and is kept by every step. -/
structure Keeps (W : Wiring σ γ δ) (B : Backend σ α β) (Agrees : γ → List α → List β → Prop) :
    Prop where
  fresh : Agrees W.fresh [] []
  act : ∀ {k b c d c' b' undefined requests replies}, Agrees c requests replies →
    W.act k b c d = some (c', b', undefined) → Seen B Agrees k b b' undefined c' requests replies

/-- The run `es` of the server alone stands behind the state `s`. -/
structure Shows (B : Backend σ α β) (Agrees : γ → List α → List β → Prop) (b : σ) (s : State σ γ)
    (es : List (Event α)) (t : Backend.State σ β) : Prop where
  run : B.machine.run { state := b } es = some t
  state : t.state = s.backend
  connections : t.connections = s.sessions.length
  defined : t.undefined = s.undefined
  agrees : ∀ k c, s.sessions[k]? = some c → Agrees c (requestsOn k es) (repliesOn k t.replies)

section

variable {Agrees : γ → List α → List β → Prop} {es : List (Event α)} {t : Backend.State σ β}

/-- A new connection. -/
theorem Shows.connect (h : Shows B Agrees b s es t) (hfresh : Agrees W.fresh [] [])
    (hdefined : s.undefined = false) (haccept : B.accept s.backend = some b') :
    Shows B Agrees b { s with backend := b', sessions := s.sessions ++ [W.fresh] }
      (es ++ [.connect]) { t with state := b', connections := t.connections + 1 } where
  run := by
    apply Machine.run_concat h.run
    simp [Backend.machine, h.defined, hdefined, h.state, haccept]
  state := rfl
  connections := by
    rw [h.connections, List.length_append, List.length_singleton]
  defined := h.defined
  agrees k c hk := by
    show Agrees c (requestsOn k (es ++ [.connect])) (repliesOn k t.replies)
    rw [requestsOn_concat_connect]
    rcases getElem?_concat_cases hk with hold | ⟨rfl, rfl⟩
    · exact h.agrees k c hold
    · -- Nothing has happened on the new connection.
      obtain ⟨hrequests, hreplies⟩ :=
        Backend.unopened_of_run h.run s.sessions.length (Nat.le_of_eq h.connections)
      rw [hrequests, hreplies]
      exact hfresh

/-- The connections after a step on one of them. -/
theorem Shows.set {es' : List (Event α)} {replies : List (Nat × β)} (h : Shows B Agrees b s es t)
    (hk : s.sessions[k]? = some c)
    (hagrees : Agrees c' (requestsOn k es') (repliesOn k replies))
    (hother : ∀ j, k ≠ j → requestsOn j es' = requestsOn j es ∧
      repliesOn j replies = repliesOn j t.replies) :
    ∀ j d, (s.sessions.set k c')[j]? = some d →
      Agrees d (requestsOn j es') (repliesOn j replies) := by
  intro j d hj
  -- The others are as they were, and so are the requests and replies on them.
  by_cases hkj : k = j
  · subst hkj
    rw [List.getElem?_set_self (List.getElem?_eq_some_iff.mp hk).1] at hj
    rwa [← Option.some.inj hj]
  · rw [List.getElem?_set_ne hkj] at hj
    rw [(hother j hkj).1, (hother j hkj).2]
    exact h.agrees j d hj

/-- A request on a connection. -/
theorem Shows.request {x : α} {y : β} (h : Shows B Agrees b s es t)
    (hdefined : s.undefined = false) (hk : s.sessions[k]? = some c)
    (hserve : B.serve k s.backend x = some (y, b'))
    (hagrees : Agrees c' (requestsOn k es ++ [x]) (repliesOn k t.replies ++ [y])) :
    Shows B Agrees b
      { backend := b', sessions := s.sessions.set k c', undefined := false }
      (es ++ [.request k x]) { t with state := b', replies := t.replies ++ [(k, y)] } where
  run := by
    have hlt : k < t.connections := by
      rw [h.connections]
      exact (List.getElem?_eq_some_iff.mp hk).1
    apply Machine.run_concat h.run
    simp [Backend.machine, h.defined, hdefined, hlt, h.state, hserve]
  state := rfl
  connections := by
    show t.connections = (s.sessions.set k c').length
    rw [List.length_set, h.connections]
  defined := h.defined.trans hdefined
  agrees := by
    apply h.set hk
    · rw [requestsOn_concat_request, repliesOn_concat]
      exact hagrees
    · intro j hkj
      exact ⟨requestsOn_concat_other hkj, repliesOn_concat_other hkj⟩

/-- A step on a connection. -/
theorem Shows.act (h : Shows B Agrees b s es t) (hkeeps : W.Keeps B Agrees)
    (hdefined : s.undefined = false) (hk : s.sessions[k]? = some c)
    (hstep : W.act k s.backend c d = some (c', b', undefined)) :
    ∃ es' t', Shows B Agrees b
      { backend := b', sessions := s.sessions.set k c', undefined := undefined } es' t' := by
  have hlt : k < t.connections := by
    rw [h.connections]
    exact (List.getElem?_eq_some_iff.mp hk).1
  have hlength : t.connections = (s.sessions.set k c').length := by
    rw [List.length_set, h.connections]
  -- The step shows to the server alone as no event or as a request.
  cases hkeeps.act (h.agrees k c hk) hstep with
  | nothing hbackend hnone hagrees =>
    subst hbackend hnone
    exact ⟨es, t, h.run, h.state, hlength, h.defined.trans hdefined,
      h.set hk hagrees fun _ _ => ⟨rfl, rfl⟩⟩
  | request x y hserve hnone hagrees =>
    subst hnone
    exact ⟨_, _, h.request hdefined hk hserve hagrees⟩
  | undefined x hserve hbackend hundefined hagrees =>
    subst hbackend hundefined
    refine ⟨es ++ [.request k x], { t with undefined := true }, ?_, h.state, hlength, rfl, ?_⟩
    · apply Machine.run_concat h.run
      simp [Backend.machine, h.defined, hdefined, hlt, h.state, hserve]
    · apply h.set hk
      · rw [requestsOn_concat_request]
        exact hagrees
      · intro j hkj
        exact ⟨requestsOn_concat_other hkj, rfl⟩

/-- **Refinement.** Every run is a run of the server alone: the same server at the end, and
    every connection related to the requests and replies on it. -/
theorem Keeps.of_run (hkeeps : W.Keeps B Agrees) {as : List (Action δ)}
    (hrun : (W.machine B).run { backend := b } as = some s) :
    ∃ es t, Shows B Agrees b s es t := by
  refine Machine.invariant_run (I := fun s => ∃ es t, Shows B Agrees b s es t) ?_
    ⟨[], { state := b }, rfl, rfl, rfl, rfl, fun k c hk => absurd hk (by simp)⟩ hrun
  rintro s a s' ⟨es, t, h⟩ hstep
  obtain ⟨hdefined, hcases⟩ := machine_step_cases hstep
  rcases hcases with ⟨b, rfl, haccept, rfl⟩ | ⟨rfl, haccept, rfl⟩ |
    ⟨k, d, c, c', b, undefined, rfl, hk, hact, rfl⟩
  · exact ⟨_, _, h.connect hkeeps.fresh hdefined haccept⟩
  · -- The event of a connection that cannot be accepted opens none.
    refine ⟨es ++ [.connect], { t with undefined := true }, ?_, h.state, h.connections, rfl, ?_⟩
    · apply Machine.run_concat h.run
      simp [Backend.machine, h.defined, hdefined, h.state, haccept]
    · intro k c hk
      rw [requestsOn_concat_connect]
      exact h.agrees k c hk
  · exact h.act hkeeps hdefined hk hact

end

end Wiring

end Lib

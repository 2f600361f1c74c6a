import Mathlib.Data.List.Nodup
import ThriftBench.Lib.Machine

namespace Lib

/-!
# A handler for every connection

A server asks a factory for a handler whenever a connection is opened, and the handler then
serves the requests of that connection.  The requests of different connections interleave in
any order.

* `transduce` — a sequential component on its own: it turns a list of inputs into a list of
  outputs, `transduce_eq` where its states are numbered;
* `PerConnection` — the server, and `PerConnection.machine`, its runs;
* `projected_of_run` — what a run looks like from one connection: its handler, alone on the
  requests of that connection;
* `undefined_eq_false_iff` — a run is defined exactly when the factory and every handler, each
  on its own, are;
* `Numbered` — a server whose factory and handlers do nothing but count: `Numbered.of_run` and
  `Numbered.undefined_eq_false_iff` say what its runs reply and which of them are defined;
* `nodup_replies_iff` — a repetition among the replies is one within a connection or one
  between two.
-/

/-! ### One component -/

section Transduce

variable {σ α β : Type*}

/-- The outputs for the inputs, in order, and the last state; `none` where one of the steps
    has no defined behaviour. -/
def transduce (f : σ → α → Option (β × σ)) (s : σ) (xs : List α) : Option (List β × σ) :=
  xs.foldlM (fun t x => (f t.2 x).map fun r => (t.1 ++ [r.1], r.2)) ([], s)

variable {f : σ → α → Option (β × σ)}

theorem transduce_append_singleton (s : σ) (xs : List α) (x : α) :
    transduce f s (xs ++ [x])
      = (transduce f s xs).bind fun t => (f t.2 x).map fun r => (t.1 ++ [r.1], r.2) := by
  unfold transduce
  simp only [List.foldlM_append, List.foldlM_cons, List.foldlM_nil, bind_pure]
  rfl

/-- A component whose states are numbered, and which goes on from the states with `more`. -/
theorem transduce_eq {state : Nat → σ} {out : Nat → α → β} {more : Nat → Prop}
    [DecidablePred more]
    (hstep : ∀ i x, f (state i) x = if more i then some (out i x, state (i + 1)) else none)
    (xs : List α) :
    transduce f (state 0) xs
      = if ∀ i < xs.length, more i then some (xs.mapIdx out, state xs.length) else none := by
  induction xs using List.reverseRecOn with
  | nil => rfl
  | append_singleton xs x ih =>
    have hsplit : (∀ i < (xs ++ [x]).length, more i) ↔
        (∀ i < xs.length, more i) ∧ more xs.length := by
      rw [List.length_append, List.length_singleton]
      exact Nat.forall_lt_succ_right
    rw [transduce_append_singleton, ih]
    simp only [hsplit]
    by_cases hall : ∀ i < xs.length, more i
    · rw [if_pos hall]
      show (f (state xs.length) x).map _ = _
      rw [hstep, List.mapIdx_concat, List.length_append, List.length_singleton]
      by_cases hlast : more xs.length
      · rw [if_pos hlast, if_pos ⟨hall, hlast⟩]
        rfl
      · rw [if_neg hlast, if_neg fun h => hlast h.2]
        rfl
    · rw [if_neg hall, if_neg fun h => hall h.1]
      rfl

end Transduce

/-! ### The server -/

/-- A server with a handler for every connection.  `none` is what the code leaves without a
    defined behaviour. -/
structure PerConnection (φ η ι ρ : Type*) where
  /-- The handler that the factory makes for a new connection. -/
  getHandler : φ → Option (η × φ)
  /-- The reply of a handler to a request. -/
  serve : η → ι → Option (ρ × η)

namespace PerConnection

variable {φ η ι ρ : Type*}

/-- What happens to the server: connections are numbered in the order in which they open. -/
inductive Event (ι : Type*) where
  | connect
  | request (k : Nat) (x : ι)

/-- The factory, the handler of every connection, and the replies so far, oldest first, each
    with its connection. -/
structure State (φ η ρ : Type*) where
  factory : φ
  handlers : List η := []
  replies : List (Nat × ρ) := []
  /-- The last event has no defined behaviour. -/
  undefined : Bool := false

/-- The runs of the server; a request needs an open connection. -/
def machine (S : PerConnection φ η ι ρ) : Machine (State φ η ρ) (Event ι) where
  step s e :=
    if s.undefined = true then
      none
    else
      match e with
      | .connect =>
        match S.getHandler s.factory with
        | none              => some { s with undefined := true }
        | some (h, factory) => some { s with factory := factory, handlers := s.handlers ++ [h] }
      | .request k x =>
        match s.handlers[k]? with
        | none   => none
        | some h =>
          match S.serve h x with
          | none            => some { s with undefined := true }
          | some (reply, h') => some { s with
              handlers := s.handlers.set k h'
              replies := s.replies ++ [(k, reply)] }

/-- How many connections were opened. -/
def connects (es : List (Event ι)) : Nat :=
  es.countP fun
    | .connect     => true
    | .request _ _ => false

/-- The requests on connection `k`. -/
def requestsOn (k : Nat) (es : List (Event ι)) : List ι :=
  es.filterMap fun
    | .connect     => none
    | .request j x => if j = k then some x else none

/-- The replies on connection `k`. -/
def repliesOn (k : Nat) (replies : List (Nat × ρ)) : List ρ :=
  replies.filterMap fun r => if r.1 = k then some r.2 else none

section

variable {es : List (Event ι)}

theorem connects_concat_connect : connects (es ++ [.connect]) = connects es + 1 := by
  rw [connects, List.countP_append]
  rfl

theorem connects_concat_request {k : Nat} {x : ι} :
    connects (es ++ [.request k x]) = connects es := by
  rw [connects, List.countP_append]
  rfl

theorem requestsOn_concat_connect {k : Nat} :
    requestsOn k (es ++ [.connect]) = requestsOn k es := by
  rw [requestsOn, List.filterMap_append]
  exact List.append_nil _

theorem requestsOn_concat_request {k : Nat} {x : ι} :
    requestsOn k (es ++ [.request k x]) = requestsOn k es ++ [x] := by
  simp [requestsOn]

theorem requestsOn_concat_other {j k : Nat} (h : j ≠ k) {x : ι} :
    requestsOn k (es ++ [.request j x]) = requestsOn k es := by
  simp [requestsOn, h]

/-- Requests on one connection. -/
theorem requestsOn_map_request {k : Nat} (xs : List ι) :
    requestsOn k (xs.map (.request k)) = xs := by
  simp [requestsOn, List.filterMap_map]

theorem repliesOn_concat {replies : List (Nat × ρ)} {k : Nat} {y : ρ} :
    repliesOn k (replies ++ [(k, y)]) = repliesOn k replies ++ [y] := by
  simp [repliesOn]

theorem repliesOn_concat_other {replies : List (Nat × ρ)} {j k : Nat} (h : j ≠ k) {y : ρ} :
    repliesOn k (replies ++ [(j, y)]) = repliesOn k replies := by
  simp [repliesOn, h]

end

/-! ### Runs -/

variable (S : PerConnection φ η ι ρ)

/-- The handlers that the factory makes for `n` connections, and the factory after that. -/
def getHandlers (factory : φ) (n : Nat) : Option (List η × φ) :=
  transduce (fun factory (_ : Unit) => S.getHandler factory) factory (List.replicate n ())

theorem getHandlers_succ (factory : φ) (n : Nat) :
    S.getHandlers factory (n + 1) = (S.getHandlers factory n).bind fun t =>
      (S.getHandler t.2).map fun r => (t.1 ++ [r.1], r.2) := by
  unfold getHandlers
  rw [List.replicate_succ']
  exact transduce_append_singleton factory _ ()

variable {S}

/-- **Step.** What an event does. -/
theorem machine_step_cases {s s' : State φ η ρ} {e : Event ι}
    (h : S.machine.step s e = some s') :
    s.undefined = false ∧
      ((∃ handler factory, e = .connect ∧ S.getHandler s.factory = some (handler, factory) ∧
          s' = { s with factory := factory, handlers := s.handlers ++ [handler] }) ∨
        (∃ k x handler reply handler', e = .request k x ∧ s.handlers[k]? = some handler ∧
          S.serve handler x = some (reply, handler') ∧
          s' = { s with
            handlers := s.handlers.set k handler'
            replies := s.replies ++ [(k, reply)] }) ∨
        (e = .connect ∧ S.getHandler s.factory = none ∧ s' = { s with undefined := true }) ∨
        (∃ k x handler, e = .request k x ∧ s.handlers[k]? = some handler ∧
          S.serve handler x = none ∧ s' = { s with undefined := true })) := by
  unfold machine at h
  by_cases hundefined : s.undefined = true
  · simp [hundefined] at h
  · refine ⟨Bool.eq_false_iff.mpr hundefined, ?_⟩
    simp only [if_neg hundefined] at h
    cases e with
    | connect =>
      cases hmade : S.getHandler s.factory with
      | none =>
        simp only [hmade, Option.some.injEq] at h
        exact Or.inr (Or.inr (Or.inl ⟨rfl, rfl, h.symm⟩))
      | some r =>
        simp only [hmade, Option.some.injEq] at h
        exact Or.inl ⟨r.1, r.2, rfl, rfl, h.symm⟩
    | request k x =>
      cases hhandler : s.handlers[k]? with
      | none => simp [hhandler] at h
      | some handler =>
        cases hserved : S.serve handler x with
        | none =>
          simp only [hhandler, hserved, Option.some.injEq] at h
          exact Or.inr (Or.inr (Or.inr ⟨k, x, handler, rfl, hhandler, hserved, h.symm⟩))
        | some r =>
          simp only [hhandler, hserved, Option.some.injEq] at h
          exact Or.inr (Or.inl ⟨k, x, handler, r.1, r.2, rfl, hhandler, hserved, h.symm⟩)

/-- The run so far, from every connection: the factory has made its handler, and the handler,
    alone on the requests of the connection, has given the replies on it. -/
structure Projected (factory : φ) (es : List (Event ι)) (s : State φ η ρ) : Prop where
  made : ∃ handlers, S.getHandlers factory (connects es) = some (handlers, s.factory) ∧
    handlers.length = s.handlers.length ∧
    ∀ (k : Nat) handler, handlers[k]? = some handler →
      ∃ handler', transduce S.serve handler (requestsOn k es)
          = some (repliesOn k s.replies, handler') ∧
        s.handlers[k]? = some handler'
  requests : ∀ k, s.handlers.length ≤ k → requestsOn k es = []
  replies : ∀ k, s.handlers.length ≤ k → repliesOn k s.replies = []

/-- Neither the factory nor a handler, each on its own, meets anything undefined. -/
def Defined (S : PerConnection φ η ι ρ) (factory : φ) (es : List (Event ι)) : Prop :=
  ∃ handlers factory', S.getHandlers factory (connects es) = some (handlers, factory') ∧
    ∀ (k : Nat) handler, handlers[k]? = some handler →
      (transduce S.serve handler (requestsOn k es)).isSome = true

section

variable {factory : φ} {es : List (Event ι)} {s s' : State φ η ρ}

theorem Projected.initial (factory : φ) :
    Projected (S := S) (ι := ι) factory [] { factory := factory } where
  made := ⟨[], rfl, rfl, fun k handler h => absurd h (by simp)⟩
  requests _ _ := rfl
  replies _ _ := rfl

theorem Projected.defined (h : Projected (S := S) factory es s) : Defined S factory es := by
  obtain ⟨handlers, hmade, -, hserved⟩ := h.made
  refine ⟨handlers, s.factory, hmade, fun k handler hk => ?_⟩
  obtain ⟨handler', htransduce, -⟩ := hserved k handler hk
  rw [htransduce]
  rfl

/-- A new connection. -/
theorem Projected.connect (h : Projected (S := S) factory es s) {handler : η} {factory' : φ}
    (hmake : S.getHandler s.factory = some (handler, factory')) :
    Projected (S := S) factory (es ++ [.connect])
      { s with factory := factory', handlers := s.handlers ++ [handler] } := by
  obtain ⟨handlers, hmade, hlength, hserved⟩ := h.made
  refine ⟨⟨handlers ++ [handler], ?_, by simp [hlength], ?_⟩, ?_, ?_⟩
  · rw [connects_concat_connect, getHandlers_succ, hmade]
    show (S.getHandler s.factory).map _ = _
    rw [hmake]
    rfl
  · intro k x hx
    show ∃ x', transduce S.serve x (requestsOn k (es ++ [.connect]))
      = some (repliesOn k s.replies, x') ∧ (s.handlers ++ [handler])[k]? = some x'
    rw [requestsOn_concat_connect]
    rcases Nat.lt_or_ge k handlers.length with hlt | hge
    · rw [List.getElem?_append_left hlt] at hx
      rw [List.getElem?_append_left (hlength ▸ hlt)]
      exact hserved k x hx
    · -- Nothing has been asked of the new handler.
      have hk : k = handlers.length := by
        have := (List.getElem?_eq_some_iff.mp hx).1
        rw [List.length_append, List.length_singleton] at this
        omega
      rw [h.requests k (by omega), h.replies k (by omega)]
      refine ⟨x, rfl, ?_⟩
      rw [hk, List.getElem?_concat_length] at hx
      rw [hk, hlength, List.getElem?_concat_length]
      exact hx
  · intro k hk
    rw [List.length_append, List.length_singleton] at hk
    rw [requestsOn_concat_connect]
    exact h.requests k (by omega)
  · intro k hk
    rw [List.length_append, List.length_singleton] at hk
    exact h.replies k (by omega)

/-- A request that is answered. -/
theorem Projected.request (h : Projected (S := S) factory es s) {k : Nat} {x : ι}
    {handler handler' : η} {reply : ρ} (hk : s.handlers[k]? = some handler)
    (hserve : S.serve handler x = some (reply, handler')) :
    Projected (S := S) factory (es ++ [.request k x])
      { s with
        handlers := s.handlers.set k handler'
        replies := s.replies ++ [(k, reply)] } := by
  obtain ⟨handlers, hmade, hlength, hserved⟩ := h.made
  have hlt : k < s.handlers.length := (List.getElem?_eq_some_iff.mp hk).1
  refine ⟨⟨handlers, by rw [connects_concat_request]; exact hmade, by simp [hlength], ?_⟩, ?_, ?_⟩
  · intro j first hj
    obtain ⟨last, htransduce, hlast⟩ := hserved j first hj
    by_cases hkj : k = j
    · subst hkj
      obtain rfl := Option.some.inj (hlast.symm.trans hk)
      refine ⟨handler', ?_, List.getElem?_set_self hlt⟩
      rw [requestsOn_concat_request, repliesOn_concat, transduce_append_singleton, htransduce]
      show (S.serve last x).map _ = _
      rw [hserve]
      rfl
    · -- The other connections see nothing of it.
      refine ⟨last, ?_, ?_⟩
      · rw [requestsOn_concat_other hkj, repliesOn_concat_other hkj]
        exact htransduce
      · show (s.handlers.set k handler')[j]? = _
        rw [List.getElem?_set_ne hkj]
        exact hlast
  · intro j hj
    rw [List.length_set] at hj
    rw [requestsOn_concat_other (by omega)]
    exact h.requests j hj
  · intro j hj
    rw [List.length_set] at hj
    rw [repliesOn_concat_other (by omega)]
    exact h.replies j hj

/-- The factory has run out of handlers. -/
theorem Projected.not_defined_connect (h : Projected (S := S) factory es s)
    (hmake : S.getHandler s.factory = none) : ¬ Defined S factory (es ++ [.connect]) := by
  obtain ⟨handlers, hmade, -, -⟩ := h.made
  rintro ⟨handlers', factory', hmade', -⟩
  -- All handlers but the last have been made, and there the factory has none.
  rw [connects_concat_connect, getHandlers_succ, hmade] at hmade'
  have hnone : (S.getHandler s.factory).map (fun r => (handlers ++ [r.1], r.2))
      = some (handlers', factory') := hmade'
  rw [hmake] at hnone
  exact absurd hnone (by simp)

/-- A handler has run out of replies. -/
theorem Projected.not_defined_request (h : Projected (S := S) factory es s) {k : Nat} {x : ι}
    {handler : η} (hk : s.handlers[k]? = some handler) (hserve : S.serve handler x = none) :
    ¬ Defined S factory (es ++ [.request k x]) := by
  obtain ⟨handlers, hmade, hlength, hserved⟩ := h.made
  rintro ⟨handlers', factory', hmade', hserved'⟩
  rw [connects_concat_request, hmade] at hmade'
  obtain ⟨rfl, -⟩ := Prod.mk.inj (Option.some.inj hmade')
  have hlt : k < handlers.length := hlength ▸ (List.getElem?_eq_some_iff.mp hk).1
  have hfirst := List.getElem?_eq_getElem hlt
  obtain ⟨last, htransduce, hlast⟩ := hserved k _ hfirst
  obtain rfl := Option.some.inj (hlast.symm.trans hk)
  -- The handler alone would come to the same request in the same state.
  have hsome := hserved' k _ hfirst
  rw [requestsOn_concat_request, transduce_append_singleton, htransduce] at hsome
  have hnone : ((S.serve last x).map fun r => (repliesOn k s.replies ++ [r.1], r.2)).isSome
      = true := hsome
  rw [hserve] at hnone
  exact absurd hnone (by simp)

/-- The two cases of a run. -/
theorem run_cases (hrun : S.machine.run { factory := factory } es = some s) :
    (s.undefined = false ∧ Projected (S := S) factory es s) ∨
      (s.undefined = true ∧ ¬ Defined S factory es) := by
  refine Machine.history_run (P := fun es s => (s.undefined = false ∧ Projected factory es s) ∨
    (s.undefined = true ∧ ¬ Defined S factory es)) (Or.inl ⟨rfl, Projected.initial factory⟩) ?_ hrun
  intro es s e s' hI hstep
  obtain ⟨hdefined, hcases⟩ := machine_step_cases hstep
  -- Nothing follows what is undefined.
  have h : Projected (S := S) factory es s := by
    rcases hI with ⟨-, h⟩ | ⟨hundefined, -⟩
    · exact h
    · exact absurd (hundefined.symm.trans hdefined) (by decide)
  rcases hcases with ⟨handler, factory', rfl, hmake, rfl⟩ |
    ⟨k, x, handler, reply, handler', rfl, hk, hserve, rfl⟩ | ⟨rfl, hmake, rfl⟩ |
    ⟨k, x, handler, rfl, hk, hserve, rfl⟩
  · exact Or.inl ⟨hdefined, h.connect hmake⟩
  · exact Or.inl ⟨hdefined, h.request hk hserve⟩
  · exact Or.inr ⟨rfl, h.not_defined_connect hmake⟩
  · exact Or.inr ⟨rfl, h.not_defined_request hk hserve⟩

/-- **Projection.** A run without anything undefined, seen from its connections. -/
theorem projected_of_run (hrun : S.machine.run { factory := factory } es = some s)
    (hdefined : s.undefined = false) : Projected (S := S) factory es s := by
  rcases run_cases hrun with ⟨-, h⟩ | ⟨hundefined, -⟩
  · exact h
  · exact absurd (hundefined.symm.trans hdefined) (by decide)

/-- **Definedness.** The components may be looked at one by one. -/
theorem undefined_eq_false_iff (hrun : S.machine.run { factory := factory } es = some s) :
    s.undefined = false ↔ Defined S factory es := by
  rcases run_cases hrun with ⟨hdefined, h⟩ | ⟨hundefined, h⟩
  · exact iff_of_true hdefined h.defined
  · exact iff_of_false (by rw [hundefined]; decide) h

end

/-! ### Servers that count -/

/-- The states of the factory, and those of every handler, are numbered.  `opens i` allows a
    connection after `i` connections, `answers k i` a reply on connection `k` after `i`
    replies. -/
structure Numbered (S : PerConnection φ η ι ρ) (factory : Nat → φ) (handler : Nat → Nat → η)
    (out : Nat → Nat → ι → ρ) (opens : Nat → Prop) (answers : Nat → Nat → Prop)
    [DecidablePred opens] [∀ k, DecidablePred (answers k)] : Prop where
  getHandler : ∀ i, S.getHandler (factory i)
    = if opens i then some (handler i 0, factory (i + 1)) else none
  serve : ∀ k i x, S.serve (handler k i) x
    = if answers k i then some (out k i x, handler k (i + 1)) else none

namespace Numbered

variable {number : Nat → φ} {handler : Nat → Nat → η} {out : Nat → Nat → ι → ρ}
  {opens : Nat → Prop} {answers : Nat → Nat → Prop} [DecidablePred opens]
  [∀ k, DecidablePred (answers k)] {es : List (Event ι)} {s : State φ η ρ}

theorem getHandlers_eq (h : Numbered S number handler out opens answers) (n : Nat) :
    S.getHandlers (number 0) n
      = if ∀ i < n, opens i then some ((List.range n).map (handler · 0), number n)
        else none := by
  have hmap : (List.replicate n ()).mapIdx (fun i _ => handler i 0)
      = (List.range n).map (handler · 0) := by
    apply List.ext_getElem?
    intro i
    rcases Nat.lt_or_ge i n with hi | hi
    · simp [hi]
    · simp [hi]
  unfold getHandlers
  rw [transduce_eq fun i (_ : Unit) => h.getHandler i, hmap, List.length_replicate]

theorem serve_eq (h : Numbered S number handler out opens answers) (k : Nat) (xs : List ι) :
    transduce S.serve (handler k 0) xs
      = if ∀ i < xs.length, answers k i then some (xs.mapIdx (out k), handler k xs.length)
        else none :=
  transduce_eq (h.serve k) xs

/-- **Run.** A run without anything undefined: no number has run out, and on every connection
    the replies are numbered from the first one on. -/
theorem of_run (h : Numbered S number handler out opens answers)
    (hrun : S.machine.run { factory := number 0 } es = some s) (hdefined : s.undefined = false) :
    (∀ i < connects es, opens i) ∧ ∀ k, (∀ i < (requestsOn k es).length, answers k i) ∧
      repliesOn k s.replies = (requestsOn k es).mapIdx (out k) := by
  have hprojected := projected_of_run hrun hdefined
  obtain ⟨handlers, hmade, hlength, hserved⟩ := hprojected.made
  rw [h.getHandlers_eq] at hmade
  split at hmade
  · next hopens =>
    obtain ⟨rfl, -⟩ := Prod.mk.inj (Option.some.inj hmade)
    rw [List.length_map, List.length_range] at hlength
    refine ⟨hopens, fun k => ?_⟩
    rcases Nat.lt_or_ge k (connects es) with hk | hk
    · obtain ⟨last, htransduce, -⟩ := hserved k (handler k 0) (by simp [hk])
      rw [h.serve_eq] at htransduce
      split at htransduce
      · next hanswers =>
        exact ⟨hanswers, (Prod.mk.inj (Option.some.inj htransduce)).1.symm⟩
      · exact absurd htransduce (by simp)
    · -- A connection that was never opened.
      rw [hprojected.requests k (by omega), hprojected.replies k (by omega)]
      exact ⟨fun i hi => absurd hi (Nat.not_lt_zero i), rfl⟩
  · exact absurd hmade (by simp)

/-- **Definedness.** The numbers of connections and of requests decide. -/
theorem undefined_eq_false_iff (h : Numbered S number handler out opens answers)
    (hrun : S.machine.run { factory := number 0 } es = some s) :
    s.undefined = false ↔ (∀ i < connects es, opens i) ∧
      ∀ k, ∀ i < (requestsOn k es).length, answers k i := by
  constructor
  · intro hdefined
    obtain ⟨hopens, hall⟩ := h.of_run hrun hdefined
    exact ⟨hopens, fun k => (hall k).1⟩
  · rintro ⟨hopens, hanswers⟩
    rw [PerConnection.undefined_eq_false_iff hrun]
    refine ⟨_, _, (h.getHandlers_eq _).trans (if_pos hopens), fun k first hfirst => ?_⟩
    obtain ⟨hlt, rfl⟩ := List.getElem?_eq_some_iff.mp hfirst
    rw [List.getElem_map, List.getElem_range, h.serve_eq, if_pos (hanswers k)]
    rfl

/-- Requests on a connection that has not been asked before. -/
theorem run_requests (h : Numbered S number handler out opens answers) {k : Nat}
    (hdefined : s.undefined = false) (hk : s.handlers[k]? = some (handler k 0)) {xs : List ι}
    (hanswers : ∀ i < xs.length, answers k i) :
    S.machine.run s (xs.map (.request k)) = some { s with
      handlers := s.handlers.set k (handler k xs.length)
      replies := s.replies ++ (xs.mapIdx (out k)).map fun y => (k, y) } := by
  obtain ⟨hlt, hget⟩ := List.getElem?_eq_some_iff.mp hk
  induction xs using List.reverseRecOn with
  | nil =>
    show some s = _
    rw [List.length_nil, ← hget, List.set_getElem_self]
    simp
  | append_singleton xs x ih =>
    rw [List.length_append, List.length_singleton] at hanswers ⊢
    have hserve := (h.serve k xs.length x).trans (if_pos (hanswers _ (Nat.lt_succ_self _)))
    rw [List.map_append, Machine.run_append, ih fun i hi => hanswers i (Nat.lt_succ_of_lt hi),
      List.mapIdx_concat]
    simp [Machine.run, machine, hdefined, hlt, hserve]

end Numbered

/-! ### Repetitions -/

section

variable {β : Type*} {f : ρ → β} {replies : List (Nat × ρ)} {r : Nat × ρ}

theorem repliesOn_cons_self : repliesOn r.1 (r :: replies) = r.2 :: repliesOn r.1 replies := by
  simp [repliesOn]

theorem repliesOn_cons_other {k : Nat} (h : r.1 ≠ k) :
    repliesOn k (r :: replies) = repliesOn k replies := by
  simp [repliesOn, h]

theorem mem_map_repliesOn {b : β} {k : Nat} :
    b ∈ (repliesOn k replies).map f ↔ ∃ r ∈ replies, r.1 = k ∧ f r.2 = b := by
  simp only [repliesOn, List.mem_map, List.mem_filterMap, Option.ite_none_right_eq_some,
    Option.some.injEq]
  constructor
  · rintro ⟨y, ⟨r, hr, hk, rfl⟩, rfl⟩
    exact ⟨r, hr, hk, rfl⟩
  · rintro ⟨r, hr, hk, rfl⟩
    exact ⟨r.2, ⟨r, hr, hk, rfl⟩, rfl⟩

/-- The replies on a connection are some of all. -/
theorem map_repliesOn_sublist (k : Nat) :
    ((repliesOn k replies).map f).Sublist (replies.map fun r => f r.2) := by
  induction replies with
  | nil => exact List.Sublist.refl _
  | cons r replies ih =>
    by_cases hk : r.1 = k
    · subst hk
      rw [repliesOn_cons_self]
      exact ih.cons_cons _
    · rw [repliesOn_cons_other hk]
      exact ih.cons _

/-- Two connections have no mark in common where no mark repeats. -/
theorem disjoint_of_nodup (h : (replies.map fun r => f r.2).Nodup) {j k : Nat} (hjk : j ≠ k) :
    List.Disjoint ((repliesOn j replies).map f) ((repliesOn k replies).map f) := by
  intro b hj hk
  obtain ⟨r, hr, rfl, rfl⟩ := mem_map_repliesOn.mp hj
  obtain ⟨r', hr', rfl, heq⟩ := mem_map_repliesOn.mp hk
  have hsame := List.inj_on_of_nodup_map h hr' hr heq
  rw [hsame] at hjk
  exact hjk rfl

/-- A mark that is on no connection twice, nor on two, does not repeat. -/
theorem nodup_of_repliesOn (hnodup : ∀ k, ((repliesOn k replies).map f).Nodup)
    (hdisjoint : ∀ j k, j ≠ k →
      List.Disjoint ((repliesOn j replies).map f) ((repliesOn k replies).map f)) :
    (replies.map fun r => f r.2).Nodup := by
  induction replies with
  | nil => exact List.nodup_nil
  | cons r replies ih =>
    have hsub : ∀ k, ((repliesOn k replies).map f).Sublist
        ((repliesOn k (r :: replies)).map f) :=
      fun k => ((List.sublist_cons_self r replies).filterMap _).map f
    rw [List.map_cons, List.nodup_cons]
    refine ⟨?_, ih (fun k => (hnodup k).sublist (hsub k)) fun j k hjk b hj hk =>
      hdisjoint j k hjk ((hsub j).subset hj) ((hsub k).subset hk)⟩
    intro hmem
    obtain ⟨r', hr', heq⟩ := List.mem_map.mp hmem
    have hold : f r.2 ∈ (repliesOn r'.1 replies).map f :=
      mem_map_repliesOn.mpr ⟨r', hr', rfl, heq⟩
    -- The earlier reply with this mark is on the same connection or on another one.
    by_cases hkey : r.1 = r'.1
    · have hfirst := hnodup r.1
      rw [repliesOn_cons_self, List.map_cons, List.nodup_cons] at hfirst
      exact hfirst.1 (hkey ▸ hold)
    · refine hdisjoint r.1 r'.1 hkey ?_ ((hsub _).subset hold)
      rw [repliesOn_cons_self]
      exact List.mem_cons_self

/-- **Repetitions.** What the replies are marked with does not repeat if and only if it does
    not repeat on a connection, and no two connections have a mark in common. -/
theorem nodup_replies_iff :
    (replies.map fun r => f r.2).Nodup ↔
      (∀ k, ((repliesOn k replies).map f).Nodup) ∧ ∀ j k, j ≠ k →
        List.Disjoint ((repliesOn j replies).map f) ((repliesOn k replies).map f) :=
  ⟨fun h => ⟨fun k => h.sublist (map_repliesOn_sublist k), fun _ _ => disjoint_of_nodup h⟩,
    fun h => nodup_of_repliesOn h.1 h.2⟩

end

end PerConnection

end Lib

import ThriftBench.Rpc.Call

namespace ThriftBench.Rpc

open Lib PerConnection

/-!
# Clients of another service

Several servers listen on the same port, and some clients use the port of another service, whose
processor does not have the method.

* `Method.mixed` — clients that call the method of a service and one that it does not have, on
  the same connections or on different ones;
* `Method.mixed_delivered` — the calls of the other service get an exception, and the server
  does what it would do without them.
-/

namespace Method

section

variable {I D ε A Res R A' Res' R' σ α β : Type} {P : TProtocol I D ε}

/-- Clients of a service with the method `m` that also call a method `m'` of another service. -/
def mixed (m : Method P A Res R) (m' : Method P A' Res' R') (hname : m'.name ≠ m.name)
    (B : Backend σ α β) (request : A → α) (answer : β → Except String R) :
    Remote P.toLink (B.sum (Backend.unnoticed B.accept)) ε (m.Invocation ⊕ m'.Invocation)
      (Except TApplicationException R ⊕ Except TApplicationException R') :=
  (m.remote B request answer).sum
    (m'.foreign B.accept (fun k => [(m.name, m.processOn B request answer k)])
      fun _ => lookup_singleton_of_ne hname _) rfl

/-- What the client of a connection knows. -/
structure Mixed (m : Method P A Res R) (m' : Method P A' Res' R') (request : A → α)
    (answer : β → Except String R)
    (c : Session I (m.Invocation ⊕ m'.Invocation)
      (Except TApplicationException R ⊕ Except TApplicationException R'))
    (requests : List α) (replies : List β) : Prop where
  served : requests <+:
    (c.sent.filterMap Sum.getLeft?).map fun x => request (m.args.arrived x.args)
  returned : c.outcomes.filterMap Sum.getLeft? <+: replies.map fun y => m.outcome (answer y)
  count : c.Counted
  /-- A call of the service has an outcome of its own. -/
  own : ∀ (i : Nat) x, c.sent[i]? = some (.inl x) → ∀ y, c.outcomes[i]? = some y →
    ∃ r, y = .inl r
  /-- A call of the other service has an exception. -/
  foreign : ∀ (i : Nat) x, c.sent[i]? = some (.inr x) → ∀ y, c.outcomes[i]? = some y →
    y = .inr (.error (invalidMethodName m'.name))

variable {m : Method P A Res R} {m' : Method P A' Res' R'} {hname : m'.name ≠ m.name}
  {B : Backend σ α β} {request : A → α} {answer : β → Except String R} {b : σ}

/-- The outcome of a call of the service comes from a reply. -/
theorem Mixed.reply {c : Session I (m.Invocation ⊕ m'.Invocation)
      (Except TApplicationException R ⊕ Except TApplicationException R')}
    {requests : List α} {replies : List β} (h : Mixed m m' request answer c requests replies)
    {i : Nat} {r : Except TApplicationException R} (hi : c.outcomes[i]? = some (.inl r)) :
    ∃ y ∈ replies, m.outcome (answer y) = r := by
  have hmem : r ∈ c.outcomes.filterMap Sum.getLeft? :=
    List.mem_filterMap.mpr ⟨_, List.mem_of_getElem? hi, rfl⟩
  exact List.mem_map.mp (h.returned.subset hmem)

/-- An outcome is of the kind of its call. -/
theorem kind_of_outcome {κ κ' ξ ξ' : Type} {xs : List (κ ⊕ κ')} {ys : List (ξ ⊕ ξ')}
    (h : ys.map Sum.isLeft <+: xs.map Sum.isLeft) {i : Nat} {x : κ ⊕ κ'} {y : ξ ⊕ ξ'}
    (hx : xs[i]? = some x) (hy : ys[i]? = some y) : y.isLeft = x.isLeft := by
  have hkind : (ys.map Sum.isLeft)[i]? = some y.isLeft := by
    rw [List.getElem?_map, hy]
    rfl
  have hsame := getElem?_of_prefix h hkind
  rw [List.getElem?_map, hx] at hsame
  exact (Option.some.inj hsame).symm

/-- **Other services.** Every run is a run of the server with its own calls alone. -/
theorem mixed_delivered {as : List (m.mixed m' hname B request answer).Step}
    {s : (m.mixed m' hname B request answer).State}
    (hrun : (m.mixed m' hname B request answer).system.run
      ((m.mixed m' hname B request answer).start b) as = some s) :
    ∃ es replies, B.machine.run { state := b } es
        = some ⟨s.backend, s.sessions.length, replies, s.undefined⟩ ∧
      ∀ (k : Nat) c, s.sessions[k]? = some c →
        Mixed m m' request answer c (requestsOn k es) (repliesOn k replies) := by
  obtain ⟨es, replies, hserver, hdelivered⟩ :=
    Remote.delivered_of_run_sum (Backend.unnoticed_passive B.accept) hrun
  refine ⟨es, replies, hserver, fun k c hk => ?_⟩
  have hd := hdelivered k c hk
  -- An outcome of the other kind than its call does not occur.
  refine ⟨hd.served, hd.returned, hd.count, ?_, ?_⟩
  · intro i x hx y hy
    cases y with
    | inl r => exact ⟨r, rfl⟩
    | inr r => exact absurd (kind_of_outcome hd.kinds hx hy) (by simp)
  · intro i x hx y hy
    cases y with
    | inl r => exact absurd (kind_of_outcome hd.kinds hx hy) (by simp)
    | inr r =>
      obtain ⟨_, rfl⟩ := hd.right r (List.mem_of_getElem? hy)
      rfl

/-- The same for a server with a handler for every connection. -/
theorem mixed_delivered_perConnection {φ η : Type} {S : PerConnection φ η α β} {factory : φ}
    {as : List (m.mixed m' hname S.backend request answer).Step}
    {s : (m.mixed m' hname S.backend request answer).State}
    (hrun : (m.mixed m' hname S.backend request answer).system.run
      ((m.mixed m' hname S.backend request answer).start (factory, [])) as = some s) :
    s.backend.2.length = s.sessions.length ∧
      ∃ es replies, S.machine.run { factory := factory } es
          = some ⟨s.backend.1, s.backend.2, replies, s.undefined⟩ ∧
        ∀ (k : Nat) c, s.sessions[k]? = some c →
          Mixed m m' request answer c (requestsOn k es) (repliesOn k replies) := by
  obtain ⟨es, replies, hserver, hmixed⟩ := mixed_delivered hrun
  obtain ⟨hmachine, hlength⟩ := run_backend hserver
  exact ⟨hlength.symm, es, replies, hmachine, hmixed⟩

end

end Method

end ThriftBench.Rpc

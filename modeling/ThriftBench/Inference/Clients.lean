import ThriftBench.Inference.InputSafety
import ThriftBench.Rpc.Loopback
import ThriftBench.Rpc.Services

namespace ThriftBench.Inference

open Lib PerConnection Rpc

/-!
# Inference server — what clients get

The server behind its generated processor, with both of its methods, and clients that make calls
of them over connections.

* `computedValue` — the handler of the other method;
* `Deployment` — a server with what libtorch answers, request by request; `computeClients` — its
  clients;
* `compute_outcomes` — a `compute_list` that has an outcome has sent a request that is large
  enough, and only one that is too small leaves the server without a defined behaviour;
* `sampleInput` — the request of the proxies and the load client; `ones_reply_iff` — it runs the
  model on what `computed_value` runs it on.
-/

section

variable {β M T : Type}

/-- `ComputeHandler::computed_value`, which only prints its arguments: the model is run on
    `torch::ones({1, 3, 224, 224})`, and the output printed by all three servers. -/
def computedValue (torch : Torch β M T) (one : β) : Except Failure Unit :=
  match torch.forward (torch.load.getD torch.module)
    (List.replicate (1 * planes * rows * columns) one) with
  | none        => .error .exception
  | some output => if torch.slice output = none then .error .exception else .ok ()

end

/-- What a processor makes of the end of a handler: its result, an exception with the text
    `what`, or nothing that is defined. -/
def answered {R : Type} (what : String) : Except Failure R → Option (Except String R)
  | .ok r             => some (.ok r)
  | .error .exception => some (.error what)
  | .error _          => none

/-- A server with its libtorch, for requests with elements `D`.  Every request loads the model anew,
    so libtorch's answers to the requests need not be the same. -/
structure Deployment (D β M T : Type) where
  server : Server
  /-- What libtorch answers the `n`-th request. -/
  torch : Nat → Torch β M T
  cast : D → β
  one : β
  /-- The text of what libtorch throws, if the `n`-th request is a `compute_list`. -/
  listError : Nat → Grid D → String
  /-- The same for `computed_value`. -/
  valueError : Nat → String

namespace Deployment

variable {D β M T : Type} (d : Deployment D β M T)

/-- How the `n`-th request ends, a `compute_list`; `none` if it has read or written past an end. -/
def listReply (n : Nat) (values : Grid D) : Option (Except String String) :=
  answered (d.listError n values) (computeList d.server (d.torch n) d.cast d.one values)

/-- The same for `computed_value`. -/
def valueReply (n : Nat) : Option (Except String Unit) :=
  answered (d.valueError n) (computedValue (d.torch n) d.one)

theorem listReply_eq (n : Nat) (values : Grid D) : d.listReply n values
    = answered (d.listError n values) (computeList d.server (d.torch n) d.cast d.one values) := rfl

theorem valueReply_eq (n : Nat) :
    d.valueReply n = answered (d.valueError n) (computedValue (d.torch n) d.one) := rfl

-- The loops are never run to see that two replies are the same.
attribute [irreducible] listReply valueReply

/-- The server, for `compute_list`; all it keeps is how many requests it has had. -/
def listServer : Backend Nat (Grid D) (Except String String) := .ofReplies d.listReply

/-- The server, for `computed_value`. -/
def valueServer : Backend Nat (BitVec 32 × BitVec 32) (Except String Unit) :=
  .ofReplies fun n _ => d.valueReply n

/-- A request that is large enough has a reply, which may be an exception. -/
theorem listReply_of_contains (n : Nat) {values : Grid D}
    (hcontains : values.Contains planes rows columns) :
    d.listReply n values = some (.ok d.server.reply) ∨
      d.listReply n values = some (.error (d.listError n values)) := by
  obtain ⟨g, hok, hcopied⟩ := (copyValues_decides d.cast d.one values).ok hcontains
  rw [listReply_eq, computeList_eq hok hcopied.shape]
  split
  · exact Or.inr rfl
  · split
    · exact Or.inr rfl
    · exact Or.inl rfl

/-- A request has a reply exactly if it is large enough. -/
theorem listReply_eq_none_iff (n : Nat) (values : Grid D) :
    d.listReply n values = none ↔ ¬ values.Contains planes rows columns := by
  constructor
  · intro hnone hcontains
    rcases d.listReply_of_contains n hcontains with hreply | hreply
    · cases hnone.symm.trans hreply
    · cases hnone.symm.trans hreply
  · intro hsmall
    obtain ⟨i, j, k, hread⟩ :=
      computeList_reads_past_end d.server (d.torch n) d.cast d.one hsmall
    rw [listReply_eq, hread]
    rfl

end Deployment

section

variable {I D ε β M T : Type} {P : TProtocol I D ε} {d : Deployment D β M T}

/-- `processMap_` -/
def processMap (P : TProtocol I D ε) (d : Deployment D β M T) (k : Nat) : ProcessMap P Nat :=
  [("computed_value", (Compute.computedValue P).processOn d.valueServer
      (fun a => (a.first, a.second)) id k),
    ("compute_list", (Compute.computeList P).processOn d.listServer OneArg.value id k)]

/-- Clients of `compute_list`. -/
def listClients (P : TProtocol I D ε) (d : Deployment D β M T) :
    Remote P.toLink d.listServer ε (Compute.computeList P).Invocation
      (Except TApplicationException String) :=
  (Compute.computeList P).remoteOf d.listServer OneArg.value id (processMap P d) fun _ => rfl

/-- Clients of the two methods. -/
def computeClients (P : TProtocol I D ε) (d : Deployment D β M T) :=
  (listClients P d).sum
    ((Compute.computedValue P).remoteOf d.valueServer (fun a => (a.first, a.second)) id
      (processMap P d) fun _ => rfl) rfl

/-- What the server may return or throw of a `compute_list`. -/
def ListOutcome (d : Deployment D β M T) (values : Grid D)
    (y : Except TApplicationException String) : Prop :=
  y = .ok d.server.reply ∨ ∃ n, y = .error ⟨.unknown, d.listError n values⟩

/-- A reply to a request of `compute_list` shows that the request is large enough. -/
theorem listOutcome_of_reply {n : Nat} {values : Grid D} {reply : Except String String}
    (hreply : d.listReply n values = some reply) :
    values.Contains planes rows columns ∧
      ListOutcome d values ((Compute.computeList P).outcome reply) := by
  have hcontains : values.Contains planes rows columns := by
    by_contra hsmall
    exact absurd (hreply.symm.trans ((d.listReply_eq_none_iff n values).mpr hsmall)) (by simp)
  refine ⟨hcontains, ?_⟩
  rcases d.listReply_of_contains n hcontains with hok | herror
  · obtain rfl := Option.some.inj (hreply.symm.trans hok)
    exact Or.inl rfl
  · obtain rfl := Option.some.inj (hreply.symm.trans herror)
    exact Or.inr ⟨n, rfl⟩

end

/-- A server over the plain libtorch, which throws at the second request. -/
def plainDeployment : Deployment Nat Nat Unit Unit where
  server := .tthreaded
  torch n := if n = 1 then { plainTorch with forward := fun _ _ => none } else plainTorch
  cast := id
  one := 1
  listError _ _ := "libtorch"
  valueError _ := "libtorch"

/-- `random_input` of the proxies and of the load client: `3` planes of `224` rows of `224`
    columns, filled with `1.0`. -/
def sampleInput {D : Type} (one : D) : Grid D := Grid.replicate planes rows columns one

section

variable {D β M T : Type} {d : Deployment D β M T}

/-- It arrives at the model as what `computed_value` gives it. -/
theorem copyValues_sampleInput (cast : D → β) (one : β) (x : D) :
    ∃ g : Grid β, copyValues cast one (sampleInput x) = .ok g ∧
      g.HasShape planes rows columns ∧
      g.elements = List.replicate (1 * planes * rows * columns) (cast x) := by
  have hcontains := (Grid.hasShape_replicate planes rows columns x).contains
  obtain ⟨g, hok, hcopied⟩ := (copyValues_decides cast one (sampleInput x)).ok hcontains
  refine ⟨g, hok, hcopied.shape, ?_⟩
  have hsize : 1 * planes * rows * columns = planes * (rows * columns) := by
    rw [Nat.one_mul, Nat.mul_assoc]
  rw [hsize]
  apply hcopied.shape.elements_eq_replicate
  intro i hi j hj k hk
  rw [hcopied.element i j k ⟨hi, hj, hk⟩, sampleInput, Grid.get?_replicate hi hj hk]
  rfl

/-- So both handlers run the model on ones. -/
theorem listReply_sampleInput_eq (n : Nat) (x : D) (hcast : d.cast x = d.one) :
    d.listReply n (sampleInput x) = answered (d.listError n (sampleInput x))
      (match (d.torch n).forward ((d.torch n).load.getD (d.torch n).module)
          (List.replicate (1 * planes * rows * columns) d.one) with
        | none        => .error .exception
        | some output =>
          if d.server.printsOutput = true ∧ (d.torch n).slice output = none then
            .error .exception
          else .ok d.server.reply) := by
  obtain ⟨g, hcopy, hshape, helements⟩ := copyValues_sampleInput d.cast d.one x
  rw [d.listReply_eq, computeList_eq hcopy hshape, helements, hcast]
  cases (d.torch n).forward ((d.torch n).load.getD (d.torch n).module)
      (List.replicate (1 * planes * rows * columns) d.one) with
  | none => rfl
  | some output => rfl

/-- **Ones.** For the same answers of libtorch: where the output is printed, and `1.0` is converted
    to the `1.0` of the tensor, the proxies' `compute_list` gets the reply of the server exactly
    if `computed_value` returns; otherwise it gets an exception.  Where the output is not
    printed, it gets the reply whenever `computed_value` returns. -/
theorem ones_reply_iff (n : Nat) (x : D) (hcast : d.cast x = d.one) :
    (d.listReply n (sampleInput x) = some (.ok d.server.reply) ∨
      d.listReply n (sampleInput x) = some (.error (d.listError n (sampleInput x)))) ∧
    (d.valueReply n = some (.ok ()) →
      d.listReply n (sampleInput x) = some (.ok d.server.reply)) ∧
    (d.server.printsOutput = true → d.listReply n (sampleInput x) = some (.ok d.server.reply) →
      d.valueReply n = some (.ok ())) := by
  rw [listReply_sampleInput_eq n x hcast, d.valueReply_eq, computedValue]
  cases (d.torch n).forward ((d.torch n).load.getD (d.torch n).module)
      (List.replicate (1 * planes * rows * columns) d.one) with
  | none =>
    exact ⟨Or.inr rfl, fun h => absurd h (by simp [answered]),
      fun _ h => absurd h (by simp [answered])⟩
  | some output =>
    by_cases hprints : d.server.printsOutput = true ∧ (d.torch n).slice output = none
    · -- Both print the output, and both fail.
      simp only [if_pos hprints, if_pos hprints.2]
      exact ⟨Or.inr rfl, fun h => absurd h (by simp [answered]),
        fun _ h => absurd h (by simp [answered])⟩
    · simp only [if_neg hprints]
      refine ⟨Or.inl rfl, fun _ => rfl, fun hprinted _ => ?_⟩
      rw [if_neg fun hslice => hprints ⟨hprinted, hslice⟩]
      rfl

end

theorem ones_reply_iff_sample :
    plainDeployment.listReply 0 (sampleInput 1) = some (.ok "processed") :=
  (ones_reply_iff (d := plainDeployment) 0 1 rfl).2.1 (plainDeployment.valueReply_eq 0)

end ThriftBench.Inference

import ThriftBench.UniqueId.Identity

namespace ThriftBench.UniqueId

open Lib

/-!
# UniqueID service — the descriptors of `GetMachineId`

Every request calls `GetMachineId`, which opens a socket.  Its exits differ in whether they
close it.

* `systemCalls` — the system calls of `GetMachineId`, in order;
* `getMachineId_descriptors` — they account for the descriptors that `getMachineId` leaves;
* `getMachineIds` — a run of calls;
* `getMachineIds_eq` — after a run, as many descriptors more are open as calls returned after
  a failed `SIOCGIFCONF`;
* `balanced_iff` — hence when a run leaves the descriptors as they were.
-/

/-- The requests that are made on the socket. -/
inductive IoctlRequest where
  | siocgifconf
  | siocgifflags
  | siocgifhwaddr
  deriving DecidableEq, Repr

/-- A system call, with its outcome. -/
inductive SystemCall where
  | socket (opened : Bool)
  | ioctl (request : IoctlRequest) (succeeded : Bool)
  | close
  deriving DecidableEq, Repr

/-- The number of open descriptors after a system call. -/
def SystemCall.descriptors (descriptors : Nat) : SystemCall → Nat
  | .socket true  => descriptors + 1
  | .socket false => descriptors
  | .ioctl _ _    => descriptors
  | .close        => descriptors - 1

/-- The calls of the loop over the interfaces. -/
def scanCalls : List Interface → List SystemCall
  | []          => []
  | ifr :: rest =>
    if ifr.flags = false then
      .ioctl .siocgifflags false :: scanCalls rest
    else
      .ioctl .siocgifflags true ::
        match ifr.hardware with
        | none   => .ioctl .siocgifhwaddr false :: scanCalls rest
        | some a =>
          .ioctl .siocgifhwaddr true :: if cString a.saData ≠ [] then [] else scanCalls rest

/-- The calls of `GetMachineId`. -/
def systemCalls (host : Host) : List SystemCall :=
  if host.socket = false then
    [.socket false]
  else
    match host.ifconf with
    | none            => [.socket true, .ioctl .siocgifconf false]
    | some interfaces =>
      [.socket true, .ioctl .siocgifconf true] ++ scanCalls interfaces ++ [.close]

/-- The open descriptors after one call of `GetMachineId` for each host, in order.  A host is
    what the system answers to that call. -/
def getMachineIds (hosts : List Host) (descriptors : Nat) : Except StdException Nat :=
  hosts.foldlM (fun open' host => (getMachineId host open').map MachineIdCall.descriptors)
    descriptors

/-- The run leaves as many descriptors open as it found. -/
def Balanced (hosts : List Host) (descriptors : Nat) : Prop :=
  getMachineIds hosts descriptors = .ok descriptors

/-! ### One call -/

/-- No exit of the loop touches the descriptors. -/
theorem foldl_scanCalls (interfaces : List Interface) (descriptors : Nat) :
    (scanCalls interfaces).foldl SystemCall.descriptors descriptors = descriptors := by
  induction interfaces with
  | nil => rfl
  | cons ifr rest ih =>
    rw [scanCalls]
    cases ifr.flags with
    | false => exact ih
    | true =>
      cases ifr.hardware with
      | none => exact ih
      | some a =>
        show (if cString a.saData ≠ [] then [] else scanCalls rest).foldl _ descriptors = _
        by_cases hbreak : cString a.saData ≠ []
        · rw [if_pos hbreak]
          rfl
        · rw [if_neg hbreak]
          exact ih

theorem Host.leavesOpen_iff {host : Host} :
    host.leavesOpen = true ↔ host.socket = true ∧ host.ifconf = none := by
  rw [Host.leavesOpen, Bool.and_eq_true, Option.isNone_iff_eq_none]

/-- What the system calls do to the descriptors. -/
theorem foldl_systemCalls (host : Host) (descriptors : Nat) :
    (systemCalls host).foldl SystemCall.descriptors descriptors
      = descriptors + if host.leavesOpen then 1 else 0 := by
  unfold systemCalls Host.leavesOpen
  cases host.socket with
  | false => rfl
  | true =>
    cases host.ifconf with
    | none => rfl
    | some interfaces =>
      show (_ ++ scanCalls interfaces ++ _).foldl _ _ = descriptors
      rw [List.foldl_append, List.foldl_append, foldl_scanCalls]
      rfl

/-- **Call.** `GetMachineId` returns, and leaves the descriptors that its system calls leave. -/
theorem getMachineId_descriptors (host : Host) (descriptors : Nat) :
    (getMachineId host descriptors).map MachineIdCall.descriptors
      = .ok ((systemCalls host).foldl SystemCall.descriptors descriptors) := by
  rw [foldl_systemCalls, host.getMachineId_eq]
  rfl

/-! ### A run of calls -/

/-- **Run.** Every call that returned after a failed `SIOCGIFCONF` has left a descriptor. -/
theorem getMachineIds_eq (hosts : List Host) (descriptors : Nat) :
    getMachineIds hosts descriptors = .ok (descriptors + hosts.countP Host.leavesOpen) := by
  induction hosts generalizing descriptors with
  | nil => rfl
  | cons host hosts ih =>
    unfold getMachineIds at ih ⊢
    rw [List.foldlM_cons, getMachineId_descriptors, foldl_systemCalls]
    show List.foldlM _ (descriptors + if host.leavesOpen then 1 else 0) hosts = _
    rw [ih, List.countP_cons]
    congr 1
    omega

/-- **Balance, exactly.** For every run of calls and every outcome of the system calls in it:
    as many descriptors are open after the run as before if and only if `SIOCGIFCONF` failed
    on no socket that was opened. -/
theorem balanced_iff (hosts : List Host) (descriptors : Nat) :
    Balanced hosts descriptors ↔
      ∀ host ∈ hosts, ¬ (host.socket = true ∧ host.ifconf = none) := by
  rw [Balanced, getMachineIds_eq, Except.ok.injEq]
  calc descriptors + hosts.countP Host.leavesOpen = descriptors
      ↔ hosts.countP Host.leavesOpen = 0 := by omega
    _ ↔ ∀ host ∈ hosts, ¬ host.leavesOpen = true := List.countP_eq_zero
    _ ↔ _ := by simp only [Host.leavesOpen_iff]

/-- A request on a host where `SIOCGIFCONF` fails leaves its socket open. -/
theorem failed_ifconf_leaves_socket : ¬ Balanced [⟨true, none, 1, fun _ => 0⟩] 3 := by
  intro hbalanced
  have hopen := Except.ok.inj ((getMachineIds_eq _ 3).symm.trans hbalanced)
  exact absurd hopen (by decide)

end ThriftBench.UniqueId

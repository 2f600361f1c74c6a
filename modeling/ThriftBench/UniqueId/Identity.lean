import ThriftBench.UniqueId.HardwareAddress
import ThriftBench.UniqueId.MachineHash
import ThriftBench.UniqueId.PostId

namespace ThriftBench.UniqueId

open Lib

/-!
# UniqueID service — the machine identity of a request

The whole of `GetMachineId` and of the rendering in `compute_unique_id`, over what the
system calls answer.

* `Host` — the answers, the PID, and the memory behind the MAC;
* `getMachineId` — status, machine id text and open descriptors after the call;
* `Host.getMachineId_eq` — what it leaves on every host;
* `computeUniqueId` — the reply; the status that `GetMachineId` returns is stored and never
  looked at;
* `computeUniqueId_eq` — the reply is `uniqueIdString` of the host's machine id, which is
  empty where `GetMachineId` returned early;
* `needsIdentity_iff` — when an id is only returned with a machine identity.
-/

/-- What the system answers to one call of `GetMachineId`. -/
structure Host where
  /-- `socket(AF_INET, SOCK_DGRAM, IPPROTO_IP)` succeeds. -/
  socket : Bool
  /-- The list that `ioctl(sock, SIOCGIFCONF, &conf)` fills in; `none` where it fails. -/
  ifconf : Option (List Interface)
  /-- `getpid()`. -/
  pid : Nat
  /-- The memory behind the terminating zero of `mac`. -/
  beyond : Nat → Byte

/-- What `GetMachineId` leaves behind. -/
structure MachineIdCall where
  status : Int
  /-- `*mac_hash`. -/
  machineId : List Char
  /-- The open descriptors of the process. -/
  descriptors : Nat
  deriving DecidableEq, Repr

/-- `GetMachineId(&machine_id)`, called with an empty `machine_id`. -/
def getMachineId (host : Host) (descriptors : Nat) : Except StdException MachineIdCall :=
  if host.socket = false then
    .ok ⟨-1, [], descriptors⟩
  else
    match host.ifconf with
    -- The early return leaves the socket open.
    | none            => .ok ⟨-1, [], descriptors + 1⟩
    | some interfaces =>
      let mac := scanInterfaces interfaces []
      (machineIdHex (hashMacAddressPid host.beyond mac host.pid).hash).map fun text =>
        ⟨0, text, descriptors⟩

/-- The reply of `compute_unique_id`, from the timestamp and the counter value on. -/
def computeUniqueId (host : Host) (descriptors : Nat) (timestamp counterValue : Int) :
    Except StdException (List Char) := do
  let timestampHex ← timestampHex timestamp
  let counterHex ← counterHex counterValue
  -- `int64_t machine_id_str = GetMachineId(&machine_id);` is not read again.
  let call ← getMachineId host descriptors
  let uniqueId ← stoul16 (call.machineId ++ timestampHex ++ counterHex)
  return Nat.toDigits 10 (uniqueId &&& 0x7FFFFFFFFFFFFFFF)

/-! ### What the code computes -/

/-- The text of a `GetMachineId` that returned early. -/
def MachineId.empty : MachineId := ⟨[], by decide, by simp⟩

namespace Host

variable (host : Host)

/-- The machine id that requests on this host carry. -/
def machineId : MachineId :=
  if host.socket = false then
    .empty
  else
    match host.ifconf with
    | none            => .empty
    | some interfaces =>
        .ofHash (hashMacAddressPid host.beyond (scanInterfaces interfaces []) host.pid).hash

/-- The status that `GetMachineId` returns: `-1` where it could not list the interfaces. -/
def status : Int := if host.socket && host.ifconf.isSome then 0 else -1

/-- The socket is open, and the exit does not close it. -/
def leavesOpen : Bool := host.socket && host.ifconf.isNone

/-- **Spec.** `GetMachineId` never throws, and leaves the host's machine id. -/
theorem getMachineId_eq (descriptors : Nat) : getMachineId host descriptors
    = .ok ⟨host.status, host.machineId.text,
        descriptors + if host.leavesOpen then 1 else 0⟩ := by
  unfold getMachineId machineId status leavesOpen
  cases host.socket with
  | false => rfl
  | true =>
    cases host.ifconf with
    | none => rfl
    | some interfaces =>
      simp only [machineIdHex_eq]
      rfl

end Host

/-- **Reply law.** Every request is answered, with the id of the host's machine id. -/
theorem computeUniqueId_eq (host : Host) (descriptors : Nat) (t c : Int) :
    computeUniqueId host descriptors t c = uniqueIdString host.machineId t c := by
  unfold computeUniqueId uniqueIdString postId
  rw [timestampHex_eq, counterHex_eq, host.getMachineId_eq descriptors]
  show (stoul16 (idText host.machineId t c)).bind _
    = ((stoul16 (idText host.machineId t c)).bind _).bind _
  rw [stoul16_idText]
  rfl

/-! ### Identity -/

/-- `GetMachineId` obtained a non-empty hardware address. -/
def ObtainsAddress (host : Host) : Prop :=
  host.socket = true ∧ ∃ l, host.ifconf = some l ∧ scanInterfaces l [] ≠ []

/-- An id is returned only with a hardware address; otherwise the request fails. -/
def NeedsIdentity (host : Host) (descriptors : Nat) (t c : Int) : Prop :=
  (∃ text, computeUniqueId host descriptors t c = .ok text) → ObtainsAddress host

/-- `socket` and `SIOCGIFCONF` succeed, and some listed interface answers both requests on it,
    with an address that does not start with a zero byte. -/
def HasAddress (host : Host) : Prop :=
  host.socket = true ∧ ∃ l, host.ifconf = some l ∧
    ∃ ifr ∈ l, ifr.flags = true ∧ ∃ a, ifr.hardware = some a ∧ a.bytes.head? ≠ some 0

theorem obtainsAddress_iff (host : Host) : ObtainsAddress host ↔ HasAddress host := by
  have hscan : ∀ l : List Interface, scanInterfaces l [] ≠ [] ↔
      ∃ ifr ∈ l, ifr.flags = true ∧ ∃ a, ifr.hardware = some a ∧ a.bytes.head? ≠ some 0 := by
    intro l
    rw [Ne, scanInterfaces_eq_nil_iff]
    simp only [not_forall, exists_prop]
  unfold ObtainsAddress HasAddress
  simp only [hscan]

/-- Every request is answered with an id. -/
theorem exists_reply (host : Host) (descriptors : Nat) (t c : Int) :
    ∃ text, computeUniqueId host descriptors t c = .ok text :=
  ⟨_, (computeUniqueId_eq host descriptors t c).trans (uniqueIdString_eq host.machineId t c)⟩

/-- **Identity, exactly.** For every outcome of the system calls, an id is returned only
    with a hardware address if and only if the host has one: no request ever fails. -/
theorem needsIdentity_iff (host : Host) (descriptors : Nat) (t c : Int) :
    NeedsIdentity host descriptors t c ↔ HasAddress host := by
  rw [← obtainsAddress_iff]
  exact ⟨fun h => h (exists_reply host descriptors t c), fun h _ => h⟩

/-- Without a socket the request is answered all the same. -/
theorem no_socket_no_identity :
    ¬ NeedsIdentity ⟨false, none, 1, fun _ => 0⟩ 3 5 0 := by
  intro hneeds
  exact absurd (hneeds (exists_reply _ 3 5 0)).1 (by decide)

/-- Processes whose `GetMachineId` returned early reply with the same ids. -/
theorem same_ids_without_identity {host host' : Host}
    (h : host.socket = false ∨ host.ifconf = none)
    (h' : host'.socket = false ∨ host'.ifconf = none) (d d' : Nat) (t c : Int) :
    computeUniqueId host d t c = computeUniqueId host' d' t c := by
  have hempty : ∀ x : Host, x.socket = false ∨ x.ifconf = none → x.machineId = .empty := by
    intro x hx
    unfold Host.machineId
    rcases hx with hx | hx
    · rw [if_pos hx]
    · rw [hx]
      split <;> rfl
  rw [computeUniqueId_eq, computeUniqueId_eq, hempty host h, hempty host' h']

end ThriftBench.UniqueId

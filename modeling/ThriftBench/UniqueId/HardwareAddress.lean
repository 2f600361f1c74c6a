import ThriftBench.Lib.CString

namespace ThriftBench.UniqueId

open Lib

/-!
# UniqueID service — the hardware address

`GetMachineId` scans the interfaces that `SIOCGIFCONF` lists for a hardware address.  The
six bytes are binary, but the scan takes them through `std::string(const char *)`: they end
at the first zero byte, and an address that starts with one looks like no address.

* `Interface` — an entry of the list, with the outcome of the two requests on it;
* `scanInterfaces` — the loop;
* `scanInterfaces_eq_nil_iff` — when it finds nothing;
* `wholeAddress_iff` — when what it finds is the whole address of the interface that it
  looks for.
-/

/-- A hardware address. -/
structure HardwareAddress where
  bytes : List Byte
  length_eq : bytes.length = 6
  deriving DecidableEq

namespace HardwareAddress

/-- The fourteen bytes of `sa_data`, those behind the address being zero. -/
def saData (a : HardwareAddress) : List Byte := a.bytes ++ List.replicate 8 0

/-- The address that a loopback device reports. -/
def IsZero (a : HardwareAddress) : Prop := ∀ b ∈ a.bytes, b = 0

instance (a : HardwareAddress) : Decidable a.IsZero :=
  inferInstanceAs (Decidable (∀ b ∈ a.bytes, b = 0))

end HardwareAddress

/-- An `ifreq` of the list. -/
structure Interface where
  /-- `ioctl(sock, SIOCGIFFLAGS, ifr)` succeeds. -/
  flags : Bool
  /-- What `ioctl(sock, SIOCGIFHWADDR, ifr)` reports; `none` where it fails. -/
  hardware : Option HardwareAddress
  deriving DecidableEq

/-- The loop over the interfaces, with the `mac` of the entries before.  The test for a
    duplicate compares the addresses of two members of the list, which always differ. -/
def scanInterfaces : List Interface → List Byte → List Byte
  | [], mac          => mac
  | ifr :: rest, mac =>
    if ifr.flags = false then
      scanInterfaces rest mac
    else
      match ifr.hardware with
      | none   => scanInterfaces rest mac
      | some a =>
        let mac := cString a.saData
        -- `break` on a non-empty text; an empty one has overwritten the `mac` from before.
        if mac ≠ [] then mac else scanInterfaces rest mac

/-! ### What is looked for -/

/-- The address of an interface on which both requests succeed, unless it is all zero. -/
def Interface.address? (ifr : Interface) : Option HardwareAddress :=
  if ifr.flags = true then ifr.hardware.filter fun a => ¬ a.IsZero else none

/-- The address of the first such interface. -/
def firstAddress (l : List Interface) : Option HardwareAddress := l.findSome? Interface.address?

/-- The loop finds the whole address of the first interface that has one. -/
def WholeAddress (l : List Interface) : Prop :=
  ∀ a, firstAddress l = some a → scanInterfaces l [] = a.bytes

/-! ### The loop -/

section

variable {a : HardwareAddress} {l : List Interface} {mac : List Byte}

/-- Without a zero byte, the C string is the address. -/
theorem cString_saData (h : (0 : Byte) ∉ a.bytes) : cString a.saData = a.bytes :=
  cString_append_zero h (List.replicate 7 0)

theorem HardwareAddress.bytes_ne_nil (a : HardwareAddress) : a.bytes ≠ [] := by
  intro hnil
  have := a.length_eq
  rw [hnil] at this
  exact absurd this (by decide)

/-- The C string is empty exactly when the first byte is zero. -/
theorem cString_saData_eq_nil : cString a.saData = [] ↔ a.bytes.head? = some 0 := by
  cases hbytes : a.bytes with
  | nil => exact absurd hbytes a.bytes_ne_nil
  | cons b rest =>
    rw [HardwareAddress.saData, hbytes, List.cons_append, cString_cons_eq_nil, List.head?_cons,
      Option.some.injEq]

theorem HardwareAddress.IsZero.cString_saData (h : a.IsZero) : cString a.saData = [] := by
  rw [cString_saData_eq_nil]
  cases hbytes : a.bytes with
  | nil => exact absurd hbytes a.bytes_ne_nil
  | cons b rest =>
    have hb := h b (hbytes ▸ List.mem_cons_self)
    rw [hb]
    rfl

/-- An interface on which a request fails is skipped. -/
theorem scanInterfaces_cons_skip {ifr : Interface} (h : ifr.flags = false ∨ ifr.hardware = none) :
    scanInterfaces (ifr :: l) mac = scanInterfaces l mac := by
  rw [scanInterfaces]
  rcases h with h | h
  · rw [if_pos h]
  · rw [h]
    split <;> rfl

/-- An interface on which both requests succeed ends the loop, unless its text is empty. -/
theorem scanInterfaces_cons_some {ifr : Interface} (hflags : ifr.flags = true)
    (ha : ifr.hardware = some a) : scanInterfaces (ifr :: l) mac
      = if cString a.saData ≠ [] then cString a.saData
        else scanInterfaces l (cString a.saData) := by
  rw [scanInterfaces, hflags, ha]
  rfl

/-- Either one of the requests fails, or the interface reports an address. -/
theorem Interface.cases (ifr : Interface) : (ifr.flags = false ∨ ifr.hardware = none) ∨
    ifr.flags = true ∧ ∃ a, ifr.hardware = some a := by
  cases hflags : ifr.flags with
  | false => exact Or.inl (Or.inl rfl)
  | true =>
    cases ha : ifr.hardware with
    | none => exact Or.inl (Or.inr rfl)
    | some a => exact Or.inr ⟨rfl, a, rfl⟩

/-- The text that the loop leaves contains no zero byte. -/
theorem zero_notMem_scanInterfaces (hmac : (0 : Byte) ∉ mac) :
    (0 : Byte) ∉ scanInterfaces l mac := by
  induction l generalizing mac with
  | nil => exact hmac
  | cons ifr rest ih =>
    rcases ifr.cases with hskip | ⟨hflags, a, ha⟩
    · rw [scanInterfaces_cons_skip hskip]
      exact ih hmac
    · rw [scanInterfaces_cons_some hflags ha]
      have hfresh := zero_notMem_cString a.saData
      split
      · exact hfresh
      · exact ih hfresh

/-- Up to the first interface that has an address the loop does not stop; there it stops if
    the address has no zero byte. -/
theorem scanInterfaces_of_firstAddress (hfirst : firstAddress l = some a)
    (hzero : (0 : Byte) ∉ a.bytes) : scanInterfaces l mac = a.bytes := by
  induction l generalizing mac with
  | nil => exact absurd hfirst (by simp [firstAddress])
  | cons ifr rest ih =>
    rw [firstAddress, List.findSome?_cons] at hfirst
    rcases ifr.cases with hskip | ⟨hflags, b, hb⟩
    · rw [scanInterfaces_cons_skip hskip]
      have hnone : ifr.address? = none := by
        rcases hskip with h | h <;> simp [Interface.address?, h]
      rw [hnone] at hfirst
      exact ih hfirst
    · rw [scanInterfaces_cons_some hflags hb]
      by_cases hz : b.IsZero
      · rw [if_neg (not_not.mpr hz.cString_saData)]
        have hnone : ifr.address? = none := by simp [Interface.address?, hb, hz]
        rw [hnone] at hfirst
        exact ih hfirst
      · -- This is the interface looked for.
        have hthis : ifr.address? = some b := by simp [Interface.address?, hflags, hb, hz]
        rw [hthis] at hfirst
        obtain rfl := Option.some.inj hfirst
        rw [cString_saData hzero, if_pos b.bytes_ne_nil]

/-- The loop finds nothing exactly when every interface on which both requests succeed has
    an address that starts with a zero byte. -/
theorem scanInterfaces_eq_nil_iff : scanInterfaces l [] = [] ↔
    ∀ ifr ∈ l, ifr.flags = true → ∀ a, ifr.hardware = some a → a.bytes.head? = some 0 := by
  induction l with
  | nil => simp [scanInterfaces]
  | cons ifr rest ih =>
    rw [List.forall_mem_cons]
    rcases ifr.cases with hskip | ⟨hflags, a, ha⟩
    · rw [scanInterfaces_cons_skip hskip, ih]
      have hhead : ifr.flags = true → ∀ a, ifr.hardware = some a → a.bytes.head? = some 0 := by
        rcases hskip with h | h <;> simp [h]
      exact ⟨fun hrest => ⟨hhead, hrest⟩, fun h => h.2⟩
    · rw [scanInterfaces_cons_some hflags ha]
      have hhead : (ifr.flags = true → ∀ a, ifr.hardware = some a → a.bytes.head? = some 0) ↔
          cString a.saData = [] := by
        simp [cString_saData_eq_nil, hflags, ha]
      rw [hhead]
      by_cases hnil : cString a.saData = []
      · rw [if_neg (not_not.mpr hnil), hnil, ih]
        exact ⟨fun hrest => ⟨rfl, hrest⟩, fun h => h.2⟩
      · rw [if_pos hnil]
        exact ⟨fun h => absurd h hnil, fun h => absurd h.1 hnil⟩

end

/-- **The whole address, exactly.** For every list of interfaces and every outcome of the
    requests on them, the loop finds the whole address of the first interface that has one
    exactly when that address contains no zero byte. -/
theorem wholeAddress_iff (l : List Interface) :
    WholeAddress l ↔ ∀ a, firstAddress l = some a → (0 : Byte) ∉ a.bytes := by
  constructor
  · intro hwhole a hfirst hzero
    have hscan := zero_notMem_scanInterfaces (l := l) (List.not_mem_nil (a := (0 : Byte)))
    rw [hwhole a hfirst] at hscan
    exact hscan hzero
  · exact fun h a hfirst => scanInterfaces_of_firstAddress hfirst (h a hfirst)

/-- The address `02:42:ac:11:00:02` of a container. -/
def containerAddress : HardwareAddress := ⟨[0x02, 0x42, 0xac, 0x11, 0x00, 0x02], rfl⟩

/-- A container's address ends after its fourth byte. -/
theorem containerAddress_cut :
    ¬ WholeAddress [⟨true, some ⟨[0, 0, 0, 0, 0, 0], rfl⟩⟩, ⟨true, some containerAddress⟩] := by
  intro hwhole
  exact absurd (hwhole containerAddress (by decide)) (by decide)

end ThriftBench.UniqueId

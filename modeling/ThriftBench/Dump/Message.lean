import Mathlib.Algebra.Ring.Nat
import Mathlib.Data.List.Perm.Basic
import ThriftBench.Lib.Connections

namespace ThriftBench.Dump

open Lib PerConnection

/-!
# Message server — the message of the day

Every connection has its own `MessageHandler`, which counts the calls on it and picks the
message from the count.  The counter has 32 bits, and `2 ^ 32` is not a multiple of three.

* `motd` — one call; `messageServer` — the server with its factory;
* `replies_eq` — the replies on every connection, in every run;
* `Rotates` — what a rotation for ever means for the replies on a connection;
* `rotates_iff` — the messages rotate as long as no connection has `2 ^ 32` calls.
-/

/-- `msgs`, by an index below three. -/
def msgs : Fin 3 → String
  | 0 => "Apache Thrift!!"
  | 1 => "Childhood is a short season"
  | 2 => "'Twas brillig"

/-- `MessageHandler` -/
structure MessageHandler where
  msg_index : BitVec 32
  connection_no : BitVec 32
  deriving DecidableEq, Repr

/-- `MessageHandlerFactory` -/
structure MessageHandlerFactory where
  connection_no : BitVec 32
  deriving DecidableEq, Repr

/-- `MessageHandler::motd`; `data` is only printed. -/
def motd (h : MessageHandler) (_data : String) : String × MessageHandler :=
  let msg_index := h.msg_index + 1
  (msgs (Fin.ofNat 3 msg_index.toNat), { h with msg_index := msg_index })

/-- `MessageHandlerFactory::getHandler` -/
def getMessageHandler (f : MessageHandlerFactory) : MessageHandler × MessageHandlerFactory :=
  let connection_no := f.connection_no + 1
  (⟨0, connection_no⟩, ⟨connection_no⟩)

/-- The server.  Unsigned counters wrap, so that nothing in it is undefined. -/
def messageServer : PerConnection MessageHandlerFactory MessageHandler String String where
  getHandler f := some (getMessageHandler f)
  serve h data := some (motd h data)

/-- A server without connections. -/
def messageStart : State MessageHandlerFactory MessageHandler String := { factory := ⟨0⟩ }

/-! ### What is wanted -/

/-- The replies on a connection go round: the `n`-th one is `msgs[n % 3]`, and any three in a
    row are the three messages. -/
structure Rotates (replies : List String) : Prop where
  nth : ∀ n, 1 ≤ n → n ≤ replies.length → replies[n - 1]? = some (msgs (Fin.ofNat 3 n))
  three : ∀ (i : Nat) a b c, replies[i]? = some a → replies[i + 1]? = some b →
    replies[i + 2]? = some c → [a, b, c].Perm [msgs 0, msgs 1, msgs 2]

/-! ### The replies -/

/-- The next value of a counter. -/
theorem ofNat_add_one (i : Nat) : BitVec.ofNat 32 i + 1 = BitVec.ofNat 32 (i + 1) :=
  (BitVec.ofNat_add i 1).symm

/-- **Call.** What the call after `i` calls replies. -/
theorem motd_eq (i : Nat) (connection_no : BitVec 32) (data : String) :
    motd ⟨BitVec.ofNat 32 i, connection_no⟩ data
      = (msgs (Fin.ofNat 3 ((i + 1) % 2 ^ 32)), ⟨BitVec.ofNat 32 (i + 1), connection_no⟩) := by
  rw [motd, ofNat_add_one, BitVec.toNat_ofNat]

/-- The states of the factory and of the handlers are numbered. -/
theorem messageServer_numbered : messageServer.Numbered (fun i => ⟨BitVec.ofNat 32 i⟩)
    (fun k i => ⟨BitVec.ofNat 32 i, BitVec.ofNat 32 (k + 1)⟩)
    (fun _ i _ => msgs (Fin.ofNat 3 ((i + 1) % 2 ^ 32))) (fun _ => True) (fun _ _ => True) where
  getHandler i := by
    show some (getMessageHandler ⟨BitVec.ofNat 32 i⟩) = _
    rw [getMessageHandler, ofNat_add_one, if_pos trivial]
    rfl
  serve k i data := by
    show some (motd _ data) = _
    rw [motd_eq, if_pos trivial]

/-- The replies to the requests on a connection. -/
def motds (requests : List String) : List String :=
  requests.mapIdx fun i _ => msgs (Fin.ofNat 3 ((i + 1) % 2 ^ 32))

/-- **Replies.** In every run, the `n`-th reply on a connection is picked by the low 32 bits of
    `n`. -/
theorem replies_eq {es : List (Event String)}
    {s : State MessageHandlerFactory MessageHandler String}
    (hrun : messageServer.machine.run messageStart es = some s) (k : Nat) :
    repliesOn k s.replies = motds (requestsOn k es) := by
  have hdefined : s.undefined = false :=
    (messageServer_numbered.undefined_eq_false_iff hrun).mpr
      ⟨fun _ _ => trivial, fun _ _ _ => trivial⟩
  exact ((messageServer_numbered.of_run hrun hdefined).2 k).2

/-! ### Rotation -/

/-- The three messages are different. -/
theorem msgs_injective : Function.Injective msgs := by
  have hall : ∀ i j, msgs i = msgs j → i = j := by decide
  exact fun i j => hall i j

/-- Three messages in a row are the three messages. -/
theorem three_in_a_row (i : Nat) :
    [msgs (Fin.ofNat 3 i), msgs (Fin.ofNat 3 (i + 1)), msgs (Fin.ofNat 3 (i + 2))].Perm
      [msgs 0, msgs 1, msgs 2] := by
  have hall : ∀ j : Fin 3, [j, j + 1, j + 2].Perm [0, 1, 2] := by decide
  have hone : Fin.ofNat 3 (i + 1) = Fin.ofNat 3 i + 1 := Fin.ext (by simp [Fin.val_add])
  have htwo : Fin.ofNat 3 (i + 2) = Fin.ofNat 3 i + 2 := Fin.ext (by simp [Fin.val_add])
  rw [hone, htwo]
  exact (hall (Fin.ofNat 3 i)).map msgs

section

variable {requests : List String}

@[simp] theorem length_motds : (motds requests).length = requests.length := List.length_mapIdx

theorem getElem?_motds {i : Nat} (hi : i < requests.length) :
    (motds requests)[i]? = some (msgs (Fin.ofNat 3 ((i + 1) % 2 ^ 32))) := by
  rw [motds, List.getElem?_mapIdx, List.getElem?_eq_getElem hi]
  rfl

/-- The messages rotate as long as the counter has not wrapped. -/
theorem rotates_motds (hlt : requests.length < 2 ^ 32) : Rotates (motds requests) := by
  have hnth : ∀ i < requests.length,
      (motds requests)[i]? = some (msgs (Fin.ofNat 3 (i + 1))) := by
    intro i hi
    rw [getElem?_motds hi, Nat.mod_eq_of_lt (by omega)]
  refine ⟨?_, ?_⟩
  · intro n hpos hn
    rw [length_motds] at hn
    obtain ⟨i, rfl⟩ : ∃ i, n = i + 1 := ⟨n - 1, by omega⟩
    exact hnth i hn
  · intro i a b c ha hb hc
    have hi : i + 2 < requests.length := by
      have := (List.getElem?_eq_some_iff.mp hc).1
      rwa [length_motds] at this
    rw [hnth i (by omega)] at ha
    rw [hnth (i + 1) (by omega)] at hb
    rw [hnth (i + 2) hi] at hc
    cases ha
    cases hb
    cases hc
    exact three_in_a_row (i + 1)

/-- After `2 ^ 32` calls the counter is back at zero, and `2 ^ 32 % 3` is one. -/
theorem not_rotates_motds (hle : 2 ^ 32 ≤ requests.length) : ¬ Rotates (motds requests) := by
  intro h
  have hwrapped := h.nth (2 ^ 32) (by decide) (by rw [length_motds]; exact hle)
  rw [getElem?_motds (by omega)] at hwrapped
  exact absurd (msgs_injective (Option.some.inj hwrapped)) (by decide)

/-- A connection sees a rotation exactly as long as its counter has not wrapped. -/
theorem rotates_motds_iff : Rotates (motds requests) ↔ requests.length < 2 ^ 32 :=
  ⟨fun h => Nat.lt_of_not_le fun hle => not_rotates_motds hle h, rotates_motds⟩

end

/-- **Rotation, exactly.** For every run of the server, the messages rotate on every connection
    if and only if no connection has had `2 ^ 32` calls. -/
theorem rotates_iff {es : List (Event String)}
    {s : State MessageHandlerFactory MessageHandler String}
    (hrun : messageServer.machine.run messageStart es = some s) :
    (∀ k, Rotates (repliesOn k s.replies)) ↔ ∀ k, (requestsOn k es).length < 2 ^ 32 := by
  simp only [replies_eq hrun, rotates_motds_iff]

/-- Two connections that take turns. -/
theorem rotates_iff_sample :
    ∃ s, messageServer.machine.run messageStart
        [.connect, .connect, .request 0 "a", .request 1 "b", .request 0 "c"] = some s ∧
      ((∀ k, Rotates (repliesOn k s.replies)) ↔ ∀ k, (requestsOn k
        [.connect, .connect, .request 0 "a", .request 1 "b", .request 0 "c"]).length < 2 ^ 32) :=
  ⟨_, rfl, rotates_iff rfl⟩

/-- One connection with `n` calls. -/
def oneConnection (n : Nat) : List (Event String) :=
  .connect :: (List.replicate n "").map (.request 0)

theorem exists_run_oneConnection (n : Nat) :
    ∃ s, messageServer.machine.run messageStart (oneConnection n) = some s ∧
      (requestsOn 0 (oneConnection n)).length = n := by
  refine ⟨_, Machine.run_cons rfl
    (messageServer_numbered.run_requests (k := 0) rfl rfl fun _ _ => trivial), ?_⟩
  show (requestsOn 0 ((List.replicate n "").map (.request 0))).length = n
  rw [requestsOn_map_request, List.length_replicate]

/-- After `2 ^ 32` calls on one connection the rotation is broken. -/
theorem long_connection_breaks_rotation :
    ∃ s, messageServer.machine.run messageStart (oneConnection (2 ^ 32)) = some s ∧
      ¬ ∀ k, Rotates (repliesOn k s.replies) := by
  obtain ⟨s, hrun, hlength⟩ := exists_run_oneConnection (2 ^ 32)
  refine ⟨s, hrun, fun hrotates => ?_⟩
  have hzero := hrotates 0
  rw [replies_eq hrun] at hzero
  exact not_rotates_motds (Nat.le_of_eq hlength.symm) hzero

end ThriftBench.Dump

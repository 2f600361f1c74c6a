import ThriftBench.Rpc.Oneway

namespace ThriftBench.Rpc

open Lib

/-!
# The services

What the generated code of each service says: methods, structs, members, names and ids.

* `OneArg`, `Result` and `Arguments.one`, `Results.string`, `Results.void` — the shapes that
  most methods have;
* one section for each service.

The copies of a generated file in different directories are the same.
-/

section

variable {I D ε α : Type}

/-! ### Shapes -/

/-- Arguments with one member. -/
structure OneArg (α : Type) where
  value : α
  isset : Bool := false
  deriving DecidableEq, Repr

/-- A result struct with `success`. -/
structure Result (R : Type) where
  success : R
  isset : Bool := false
  deriving DecidableEq, Repr

/-- The arguments of a method with one parameter. -/
def Arguments.one {P : TProtocol I D ε} (c : Codec P α) (hdepth : c.depth ≤ 4)
    (args pargs name : String) (default : α) : Arguments P (OneArg α) where
  struct := ⟨args, [.member c name 1 OneArg.value fun _ v => ⟨v, true⟩], List.nodup_singleton _⟩
  pargs := pargs
  init := ⟨default, false⟩
  arrived a := ⟨a.value, true⟩
  depth_le := Nat.max_le.mpr ⟨hdepth, Nat.zero_le _⟩
  arrives a := by simp

theorem Arguments.one_sendable {P : TProtocol I D ε} {c : Codec P α} (hdepth : c.depth ≤ 4)
    {args pargs name : String} {default : α} {a : OneArg α} (h : c.Sendable a.value) :
    (Arguments.one c hdepth args pargs name default).struct.Sendable a := by
  intro f hf
  obtain rfl := List.mem_singleton.mp hf
  exact h

/-- `success`, written if it is set. -/
def Field.success {P : TProtocol I D ε} (c : Codec P α) : Field P (Result α) :=
  (Field.member c "success" 0 Result.success fun _ v => ⟨v, true⟩).onlyIf Result.isset

/-- The result of a method that returns a string. -/
def Results.string (P : TProtocol I D ε) (name : String) : Results P (Result String) String where
  struct := ⟨name, [.success (.string P)], List.nodup_singleton _⟩
  presult ret := ⟨ret, false⟩
  pack r := ⟨r, true⟩
  unpack s := if s.isset = true then some s.success else none
  received r := r
  sendable r f hf := by
    obtain rfl := List.mem_singleton.mp hf
    trivial
  depth_le := Nat.le_of_ble_eq_true rfl
  arrives ret r := by
    refine ⟨⟨r, true⟩, ?_, rfl⟩
    simp [Field.success, Field.arrive_onlyIf]

/-- The result of a `void` method. -/
def Results.void (P : TProtocol I D ε) (name : String) : Results P Unit Unit where
  struct := ⟨name, [], List.nodup_nil⟩
  presult _ := ()
  pack _ := ()
  unpack _ := some ()
  received _ := ()
  sendable _ _ hf := absurd hf List.not_mem_nil
  depth_le := Nat.zero_le _
  arrives _ _ := ⟨(), rfl, rfl⟩

/-- The members of two parameters, in their order. -/
structure TwoArgs (α β : Type) where
  first : α
  second : β
  isset_first : Bool := false
  isset_second : Bool := false
  deriving DecidableEq, Repr

/-- The arguments of a method with two parameters. -/
def Arguments.two {β : Type} {P : TProtocol I D ε} (c : Codec P α) (d : Codec P β)
    (hc : c.depth ≤ 4) (hd : d.depth ≤ 4) (args pargs first second : String) (a : α) (b : β) :
    Arguments P (TwoArgs α β) where
  struct := ⟨args,
    [.member c first 1 TwoArgs.first fun s v => { s with first := v, isset_first := true },
      .member d second 2 TwoArgs.second fun s v => { s with second := v, isset_second := true }],
    by simp [Field.member]⟩
  pargs := pargs
  init := ⟨a, b, false, false⟩
  arrived a := ⟨a.first, a.second, true, true⟩
  depth_le := Nat.max_le.mpr ⟨hc, Nat.max_le.mpr ⟨hd, Nat.zero_le _⟩⟩
  arrives a := by simp

variable (P : TProtocol I D ε)

/-! ### `Message` -/

def Message.motd : Method P (OneArg String) (Result String) String where
  name := "motd"
  args := .one (.string P) (Nat.le_of_ble_eq_true rfl) "Message_motd_args" "Message_motd_pargs"
    "Value" ""
  result := .string P "Message_motd_result"

theorem Message.sendable (a : OneArg String) : (motd P).args.struct.Sendable a :=
  Arguments.one_sendable (Nat.le_of_ble_eq_true rfl) trivial

/-! ### `UniqueID`, `uniqueid` without a result, and `UniqueIDAsync` -/

def UniqueID.computeUniqueId : Method P (OneArg (BitVec 32)) (Result String) String where
  name := "compute_unique_id"
  args := .one (.i32 P) (Nat.le_of_ble_eq_true rfl) "UniqueID_compute_unique_id_args"
    "UniqueID_compute_unique_id_pargs" "id" 0
  result := .string P "UniqueID_compute_unique_id_result"

theorem UniqueID.sendable (a : OneArg (BitVec 32)) :
    (computeUniqueId P).args.struct.Sendable a :=
  Arguments.one_sendable (Nat.le_of_ble_eq_true rfl) trivial

/-- A call, with what `_return` is before it. -/
def UniqueID.callOf (ret : String) (id : BitVec 32) : (computeUniqueId P).Invocation :=
  ⟨ret, ⟨id, false⟩, sendable P _⟩

def Uniqueid.computeUniqueId : Method P (OneArg (BitVec 32)) Unit Unit where
  name := "compute_unique_id"
  args := .one (.i32 P) (Nat.le_of_ble_eq_true rfl) "uniqueid_compute_unique_id_args"
    "uniqueid_compute_unique_id_pargs" "id" 0
  result := .void P "uniqueid_compute_unique_id_result"

theorem Uniqueid.sendable (a : OneArg (BitVec 32)) :
    (computeUniqueId P).args.struct.Sendable a :=
  Arguments.one_sendable (Nat.le_of_ble_eq_true rfl) trivial

/-- The method of `UniqueIDAsync` has the same name. -/
def UniqueIDAsync.computeUniqueId : OnewayMethod P (OneArg (BitVec 64)) where
  name := "compute_unique_id"
  args := .one (.i64 P) (Nat.le_of_ble_eq_true rfl) "UniqueIDAsync_compute_unique_id_args"
    "UniqueIDAsync_compute_unique_id_pargs" "id" 0

/-! ### `HelloWorld` -/

def HelloWorld.helloWorld : Method P Unit (Result String) String where
  name := "hello_world"
  args := {
    struct := ⟨"HelloWorld_hello_world_args", [], List.nodup_nil⟩
    pargs := "HelloWorld_hello_world_pargs"
    init := ()
    arrived := fun _ => ()
    depth_le := Nat.zero_le _
    arrives := fun _ => rfl }
  result := .string P "HelloWorld_hello_world_result"

/-! ### `Compute` -/

def Compute.computedValue : Method P (TwoArgs (BitVec 32) (BitVec 32)) Unit Unit where
  name := "computed_value"
  args := .two (.i32 P) (.i32 P) (Nat.le_of_ble_eq_true rfl) (Nat.le_of_ble_eq_true rfl)
    "Compute_computed_value_args" "Compute_computed_value_pargs" "row" "column" 0 0
  result := .void P "Compute_computed_value_result"

def Compute.computeList : Method P (OneArg (List (List (List D)))) (Result String) String where
  name := "compute_list"
  args := .one (.vector (.vector (.vector (.double P)))) (Nat.le_of_ble_eq_true rfl)
    "Compute_compute_list_args" "Compute_compute_list_pargs" "values" []
  result := .string P "Compute_compute_list_result"

/-! ### `AsyncService` -/

def AsyncService.computeResult : OnewayMethod P (TwoArgs (BitVec 64) (BitVec 64)) where
  name := "compute_result"
  args := .two (.i64 P) (.i64 P) (Nat.le_of_ble_eq_true rfl) (Nat.le_of_ble_eq_true rfl)
    "AsyncService_compute_result_args" "AsyncService_compute_result_pargs" "num_1" "num_2" 0 0

/-! ### `EchoService` -/

/-- `TraceContext` -/
structure TraceContext where
  req_id : BitVec 64 := 0
  baggage : String := ""
  isset_req_id : Bool := false
  isset_baggage : Bool := false
  deriving DecidableEq, Repr

def TraceContext.struct : Struct P TraceContext where
  name := "TraceContext"
  fields := [
    .member (.i64 P) "req_id" 1 req_id fun s v => { s with req_id := v, isset_req_id := true },
    .member (.string P) "baggage" 2 baggage
      fun s v => { s with baggage := v, isset_baggage := true }]
  nodup_ids := by simp [Field.member]

/-- A context as it arrives. -/
def TraceContext.arrived (s : TraceContext) : TraceContext :=
  { s with isset_req_id := true, isset_baggage := true }

/-- `EchoService_call_args` -/
structure EchoService.CallArgs where
  req : TraceContext := {}
  message : String := ""
  isset_req : Bool := false
  isset_message : Bool := false
  deriving DecidableEq, Repr

def EchoService.call : Method P CallArgs Unit Unit where
  name := "call"
  args := {
    struct := {
      name := "EchoService_call_args"
      fields := [
        .struct "req" 1 (TraceContext.struct P) CallArgs.req
          fun s v => { s with req := v, isset_req := true },
        .member (.string P) "message" 2 CallArgs.message
          fun s v => { s with message := v, isset_message := true }]
      nodup_ids := by simp [Field.member, Field.struct] }
    pargs := "EchoService_call_pargs"
    init := {}
    arrived := fun a => ⟨a.req.arrived, a.message, true, true⟩
    depth_le := Nat.le_of_ble_eq_true rfl
    arrives := fun a => by
      simp [Field.arrive_struct, TraceContext.struct, TraceContext.arrived] }
  result := .void P "EchoService_call_result"

theorem EchoService.sendable (a : CallArgs) : (call P).args.struct.Sendable a := by
  intro f hf
  rcases List.mem_cons.mp hf with rfl | hf
  · intro g hg
    rcases List.mem_cons.mp hg with rfl | hg
    · trivial
    · obtain rfl := List.mem_singleton.mp hg
      trivial
  · obtain rfl := List.mem_singleton.mp hf
    trivial

/-! ### `TradeHistory` -/

/-- `TradeReport` -/
structure TradeReport (D : Type) where
  symbol : String
  price : D
  size : BitVec 32
  seq_num : BitVec 32
  isset_symbol : Bool := false
  isset_price : Bool := false
  isset_size : Bool := false
  isset_seq_num : Bool := false
  deriving DecidableEq, Repr

def TradeReport.struct : Struct P (TradeReport D) where
  name := "TradeReport"
  fields := [
    .member (.string P) "symbol" 1 symbol fun s v => { s with symbol := v, isset_symbol := true },
    .member (.double P) "price" 2 price fun s v => { s with price := v, isset_price := true },
    .member (.i32 P) "size" 3 size fun s v => { s with size := v, isset_size := true },
    .member (.i32 P) "seq_num" 4 seq_num
      fun s v => { s with seq_num := v, isset_seq_num := true }]
  nodup_ids := by simp [Field.member]

/-- A report as it arrives. -/
def TradeReport.arrived (s : TradeReport D) : TradeReport D :=
  { s with isset_symbol := true, isset_price := true, isset_size := true, isset_seq_num := true }

theorem TradeReport.sendable (r : TradeReport D) : (TradeReport.struct P).Sendable r := by
  intro f hf
  simp only [struct, List.mem_cons, List.not_mem_nil, or_false] at hf
  rcases hf with rfl | rfl | rfl | rfl
  all_goals trivial

def TradeHistory.getLastSale :
    Method P (OneArg String) (Result (TradeReport D)) (TradeReport D) where
  name := "get_last_sale"
  args := .one (.string P) (Nat.le_of_ble_eq_true rfl) "TradeHistory_get_last_sale_args"
    "TradeHistory_get_last_sale_pargs" "Symbol" ""
  result := {
    struct := ⟨"TradeHistory_get_last_sale_result",
      [(Field.struct "success" 0 (TradeReport.struct P) Result.success fun _ v =>
        ⟨v, true⟩).onlyIf Result.isset], List.nodup_singleton _⟩
    presult := fun ret => ⟨ret, false⟩
    pack := fun r => ⟨r, true⟩
    unpack := fun s => if s.isset = true then some s.success else none
    received := TradeReport.arrived
    sendable := fun r f hf => by
      obtain rfl := List.mem_singleton.mp hf
      exact TradeReport.sendable P r
    depth_le := Nat.le_of_ble_eq_true rfl
    arrives := by
      intro ret r
      refine ⟨⟨r.arrived, true⟩, ?_, rfl⟩
      simp [Field.arrive_onlyIf, Field.arrive_struct, TradeReport.struct, TradeReport.arrived] }

end

end ThriftBench.Rpc

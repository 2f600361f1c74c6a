import Mathlib.Data.List.Nodup
import ThriftBench.Rpc.Codec

namespace ThriftBench.Rpc

open Lib

/-!
# Generated structs — `read` and `write`

The `read` functions of the generated code are one loop: a field header, a `switch` over the
id, the type tested in every case, and `skip` for everything else.  They differ in the members,
and so do the `write` functions.  A struct is therefore given by its members.

* `Field` — a member: what `read` and `write` do with it, and what they mean for a value on
  the wire; `Field.member` for a type with a codec, `Field.struct` for another struct;
* `Struct.read`, `Struct.write` — the two functions;
* `Struct.store` — what a field on the wire does to a struct; one that the struct does not know
  does nothing (`store_unknown`);
* `Struct.reads` — `read` does what the fields on the wire say, in their order;
* `Struct.foldlM_values` — and hence reads what `write` writes, also where other fields stand
  between the members, and in the structs among them (`Struct.foldlM_store_strip`).
-/

section

variable {I D ε S S' : Type} {P : TProtocol I D ε}

/-! ### Members -/

/-- A member of a generated struct. -/
structure Field (P : TProtocol I D ε) (S : Type) where
  name : String
  id : BitVec 16
  type : TType
  /-- The case of the member in `read`, `__isset` included. -/
  read : S → Reader I ε S
  /-- The calls for its value in `write`; `none` where `__isset` is tested and is not set. -/
  write : S → Option (List (Token D))
  /-- What a value on the wire does to the member; `none` where it cannot be read as one. -/
  store : S → Value D → Option S
  /-- A value on the wire without the fields, inside it, that are not known. -/
  strip : Value D → Value D
  /-- The value that is written. -/
  value : S → Option (Value D)
  /-- The containers in it can be counted. -/
  Sendable : S → Prop
  /-- How deep it nests. -/
  depth : Nat
  reads_store : ∀ {s s' v}, v.type = type → v.Fits P.recursionLimit → store s v = some s' →
    Reads P.Holds (read s) v.tokens s'
  write_eq : ∀ s, write s = (value s).map Value.tokens
  type_value : ∀ {s v}, value s = some v → v.type = type
  fits_value : ∀ {s v}, Sendable s → value s = some v → v.Fits depth
  type_strip : ∀ v, (strip v).type = v.type
  store_strip : ∀ s v, store s (strip v) = store s v
  strip_value : ∀ {s v}, value s = some v → strip v = v

namespace Field

/-- A member with the codec of its type. -/
def member {α : Type} (c : Codec P α) (name : String) (id : BitVec 16) (get : S → α)
    (set : S → α → S) : Field P S where
  name := name
  id := id
  type := c.type
  read s := do
    let a ← c.read
    pure (set s a)
  write s := some (c.write (get s))
  store s v := (c.unwrap v).map (set s)
  strip v := v
  value s := some (c.wrap (get s))
  Sendable s := c.Sendable (get s)
  depth := c.depth
  reads_store {s s' v} _ hfits hstore := by
    obtain ⟨a, ha, rfl⟩ := Option.map_eq_some_iff.mp hstore
    exact (c.reads_unwrap hfits ha).map
  write_eq s := congrArg some (c.write_eq (get s))
  type_value h := by
    cases h
    exact c.type_wrap _
  fits_value hsend h := by
    cases h
    exact c.fits_wrap hsend
  type_strip _ := rfl
  store_strip _ _ := rfl
  strip_value _ := rfl

/-- A member that is written only if its `__isset` is set. -/
def onlyIf (isset : S → Bool) (f : Field P S) : Field P S where
  name := f.name
  id := f.id
  type := f.type
  read := f.read
  write s := if isset s = true then f.write s else none
  store := f.store
  strip := f.strip
  value s := if isset s = true then f.value s else none
  Sendable := f.Sendable
  depth := f.depth
  reads_store := f.reads_store
  write_eq s := by
    split
    · exact f.write_eq s
    · rfl
  type_value h := by
    split at h
    · exact f.type_value h
    · exact absurd h (by simp)
  fits_value hsend h := by
    split at h
    · exact f.fits_value hsend h
    · exact absurd h (by simp)
  type_strip := f.type_strip
  store_strip := f.store_strip
  strip_value h := by
    split at h
    · exact f.strip_value h
    · exact absurd h (by simp)

/-- The member of `s` after that of `a` was written and has been read. -/
def arrive (f : Field P S) (a s : S) : Option S :=
  match f.value a with
  | some v => f.store s v
  | none   => some s

@[simp] theorem arrive_member {α : Type} (c : Codec P α) (name : String) (id : BitVec 16)
    (get : S → α) (set : S → α → S) (a s : S) :
    (member c name id get set).arrive a s = some (set s (get a)) :=
  congrArg (Option.map (set s)) (c.unwrap_wrap (get a))

theorem arrive_onlyIf (isset : S → Bool) (f : Field P S) (a s : S) :
    (f.onlyIf isset).arrive a s = if isset a = true then f.arrive a s else some s := by
  show (match if isset a = true then f.value a else none with
    | some v => f.store s v
    | none   => some s) = _
  by_cases hset : isset a = true
  · rw [if_pos hset, if_pos hset]
    rfl
  · rw [if_neg hset, if_neg hset]

end Field

/-! ### Structs -/

/-- A generated struct; the cases of a `switch` are different. -/
structure Struct (P : TProtocol I D ε) (S : Type) where
  name : String
  fields : List (Field P S)
  nodup_ids : (fields.map Field.id).Nodup

/-- A field header, or `none` for the stop. -/
def TProtocol.fieldHeader (P : TProtocol I D ε) : Reader I ε (Option (TType × BitVec 16)) :=
  P.readFieldBegin >>= fun k => pure (if k.1 = .stop then none else some k)

namespace Struct

/-- The `switch` in `read`. -/
def readField (St : Struct P S) (s : S) (ftype : TType) (fid : BitVec 16) : Reader I ε S :=
  match St.fields.find? fun f => f.id = fid with
  | some f => if ftype = f.type then f.read s else P.skip ftype >>= fun _ => pure s
  | none   => P.skip ftype >>= fun _ => pure s

/-- The body of the loop in `read`, for a field of the type and the id `k`. -/
def readNext (St : Struct P S) (s : S) (k : TType × BitVec 16) : Reader I ε S := do
  let s ← St.readField s k.1 k.2
  P.readFieldEnd
  pure s

/-- The loop in `read`, up to the stop. -/
def readLoop (St : Struct P S) (s : S) : Reader I ε S := fun i =>
  readFields P.fieldHeader St.readNext P.endOfFile (P.remaining i) s i

/-- `read`, into a struct that may have been used before. -/
def read (St : Struct P S) (s : S) : Reader I ε S := do
  P.readStructBegin
  let s ← St.readLoop s
  P.readStructEnd
  pure s

/-- `write` -/
def write (St : Struct P S) (s : S) : List (Token D) :=
  .structBegin St.name :: (St.fields.flatMap (fun f =>
    match f.write s with
    | some value => [.fieldBegin f.name f.type f.id] ++ (value ++ [.fieldEnd])
    | none       => []) ++ [.fieldStop, .structEnd])

/-- The fields that `write` writes. -/
def values (St : Struct P S) (s : S) : List (Tag × Value D) :=
  St.fields.filterMap fun f => (f.value s).map fun v => (⟨f.name, f.id⟩, v)

/-- All members can be written. -/
def Sendable (St : Struct P S) (s : S) : Prop := ∀ f ∈ St.fields, f.Sendable s

/-- How deep the members nest. -/
def depth (St : Struct P S) : Nat := (St.fields.map Field.depth).foldr max 0

/-- What a field on the wire does to a struct. -/
def store (St : Struct P S) (s : S) (x : Tag × Value D) : Option S :=
  match St.fields.find? fun f => f.id = x.1.id with
  | some f => if x.2.type = f.type then f.store s x.2 else some s
  | none   => some s

/-- A field on the wire as the struct knows it, under the name of its member; `none` where there is
    no member with this id and this type. -/
def known (St : Struct P S) (x : Tag × Value D) : Option (Tag × Value D) :=
  (St.fields.find? fun f => f.id = x.1.id).bind fun f =>
    if x.2.type = f.type then some (⟨f.name, f.id⟩, f.strip x.2) else none

/-- What is left of the fields on the wire, without those that are not known. -/
def strip (St : Struct P S) (xs : List (Tag × Value D)) : List (Tag × Value D) :=
  xs.filterMap St.known

/-- The same struct under another name. -/
def named (St : Struct P S) (name : String) : Struct P S := { St with name := name }

variable {St : Struct P S} {s s' : S} {x y : Tag × Value D} {xs : List (Tag × Value D)}

/-- The member with an id is the only one. -/
theorem find?_id {f : Field P S} (hf : f ∈ St.fields) :
    (St.fields.find? fun g => g.id = f.id) = some f := by
  obtain ⟨g, hg⟩ : ∃ g, (St.fields.find? fun g => g.id = f.id) = some g :=
    Option.isSome_iff_exists.mp (List.find?_isSome.mpr ⟨f, hf, decide_eq_true rfl⟩)
  have hid : g.id = f.id := of_decide_eq_true (List.find?_some hg :)
  rw [hg, List.inj_on_of_nodup_map St.nodup_ids (List.mem_of_find?_eq_some hg) hf hid]

/-- A field that the struct does not know changes nothing. -/
theorem store_unknown (h : St.known x = none) : St.store s x = some s := by
  unfold known at h
  unfold store
  split
  · next f hf =>
    rw [hf, Option.bind_some] at h
    split at h
    · cases h
    · next htype => rw [if_neg htype]
  · rfl

/-- Of one that it knows, only what it knows counts. -/
theorem store_known (h : St.known x = some y) : St.store s y = St.store s x := by
  obtain ⟨f, hf, hknown⟩ := Option.bind_eq_some_iff.mp h
  split at hknown
  · next htype =>
    obtain rfl := Option.some.inj hknown
    have hid : f.id = x.1.id := of_decide_eq_true (List.find?_some hf :)
    have hfind : (St.fields.find? fun g => g.id = f.id) = some f := by rw [hid, hf]
    rw [store, store, hf, hfind]
    show (if (f.strip x.2).type = f.type then f.store s (f.strip x.2) else some s)
      = if x.2.type = f.type then f.store s x.2 else some s
    rw [f.type_strip, f.store_strip]
  · cases hknown

/-- Only what the struct knows counts. -/
theorem foldlM_store_strip (s : S) (xs : List (Tag × Value D)) :
    xs.foldlM St.store s = (St.strip xs).foldlM St.store s := by
  induction xs generalizing s with
  | nil => rfl
  | cons x xs ih =>
    cases hx : St.known x with
    | none =>
      rw [strip, List.filterMap_cons_none hx, List.foldlM_cons, store_unknown hx]
      exact ih s
    | some y =>
      rw [strip, List.filterMap_cons_some hx, List.foldlM_cons, List.foldlM_cons, store_known hx]
      exact congrArg _ (funext ih)

/-! ### `read` -/

theorem reads_header (t : Tag) (v : Value D) :
    Reads P.Holds P.fieldHeader [.fieldBegin t.name v.type t.id] (some (v.type, t.id)) := by
  have hmap := (P.reads_fieldBegin t.name v.type t.id).map
    (g := fun k => if k.1 = .stop then none else some k)
  rw [if_neg v.type_ne_stop] at hmap
  exact hmap

theorem reads_stop : Reads P.Holds P.fieldHeader [.fieldStop] none := by
  intro i rest hi
  obtain ⟨id, i', hread, hrest⟩ := P.reads_fieldStop hi
  refine ⟨i', ?_, hrest⟩
  show (P.readFieldBegin i).bind _ = _
  rw [hread]
  rfl

/-- **One field.** The `switch` does what `store` says. -/
theorem readField_reads (hfits : x.2.Fits P.recursionLimit) (hstore : St.store s x = some s') :
    Reads P.Holds (St.readField s x.2.type x.1.id) x.2.tokens s' := by
  have hskip : Reads P.Holds (P.skip x.2.type >>= fun _ => pure s) x.2.tokens s :=
    (P.reads_skip x.2 hfits).map
  unfold store at hstore
  unfold readField
  split at hstore
  · next f hf =>
    split at hstore
    · next htype =>
      simp only [if_pos htype]
      exact f.reads_store htype hfits hstore
    · next htype =>
      -- A member's id with another type: `iprot->skip(ftype)`.
      obtain rfl := Option.some.inj hstore
      simp only [if_neg htype]
      exact hskip
  · obtain rfl := Option.some.inj hstore
    exact hskip

/-- **Reading.** For a struct on the wire whose values nest to a limited depth, `read` does
    what its fields say, one after the other: members are stored, whatever their order and
    however often they come, and everything else is passed over. -/
theorem reads (hfits : ∀ x ∈ xs, x.2.Fits P.recursionLimit)
    (hstore : xs.foldlM St.store s = some s') (name : String) :
    Reads P.Holds (St.read s) (Value.struct name xs).tokens s' := by
  have hbody : ∀ x ∈ xs, ∀ s s', St.store s x = some s' →
      Reads P.Holds (St.readNext s (x.2.type, x.1.id)) (x.2.tokens ++ [.fieldEnd]) s' :=
    fun x hx s s' hs =>
    (readField_reads (hfits x hx) hs).bind P.reads_fieldEnd.map
  have hfields : Reads P.Holds (St.readLoop s) (fieldTokens xs ++ [.fieldStop]) s' := by
    intro i rest hi
    -- Every field has a header on the wire, and so the rounds of the loop suffice.
    have hroom : xs.length < P.remaining i := by
      have hle := P.headers_le hi
      have hcount := length_le_headers xs
      have hstop : [Token.fieldStop].countP (Token.isHeader (D := D)) = 1 := rfl
      rw [List.countP_append, List.countP_append, hstop] at hle
      omega
    have hloop : Reads P.Holds
        (readFields P.fieldHeader St.readNext P.endOfFile (P.remaining i) s) _ s' :=
      Reads.fields (fun x _ => reads_header x.1 x.2) hbody reads_stop hstore hroom
    rw [← fieldTokens_eq] at hloop
    exact hloop i rest hi
  have htokens : (Value.struct name xs).tokens
      = [.structBegin name] ++ ((fieldTokens xs ++ [.fieldStop]) ++ [.structEnd]) := by
    rw [Value.tokens, List.append_assoc]
    rfl
  rw [htokens]
  exact (P.reads_structBegin name).bind (hfields.bind P.reads_structEnd.map)

/-! ### `write` -/

/-- What is written is a struct with the values. -/
theorem write_eq (St : Struct P S) (s : S) :
    St.write s = (Value.struct St.name (St.values s)).tokens := by
  have hfields : ∀ fs : List (Field P S), fs.flatMap (fun f =>
      match f.write s with
      | some value => [.fieldBegin f.name f.type f.id] ++ (value ++ [.fieldEnd])
      | none       => [])
        = fieldTokens (fs.filterMap fun f => (f.value s).map fun v => (⟨f.name, f.id⟩, v)) := by
    intro fs
    induction fs with
    | nil => rfl
    | cons f fs ih =>
      rw [List.flatMap_cons, ih, f.write_eq]
      cases hv : f.value s with
      | none => simp [hv]
      | some v => simp [hv, fieldTokens, f.type_value hv]
  rw [write, Value.tokens, values, hfields]

/-- Everything that is written is known, down to the fields of the structs in it. -/
theorem strip_values (St : Struct P S) (s : S) : St.strip (St.values s) = St.values s := by
  have hknown : ∀ x ∈ St.values s, St.known x = some x := by
    intro x hx
    obtain ⟨f, hf, hmap⟩ := List.mem_filterMap.mp hx
    obtain ⟨v, hv, rfl⟩ := Option.map_eq_some_iff.mp hmap
    rw [known, find?_id hf, Option.bind_some, if_pos (f.type_value hv), f.strip_value hv]
  rw [strip, List.filterMap_congr hknown, List.filterMap_some]

theorem depth_le (St : Struct P S) {f : Field P S} (hf : f ∈ St.fields) : f.depth ≤ St.depth := by
  have hall : ∀ fs : List (Field P S), f ∈ fs → f.depth ≤ (fs.map Field.depth).foldr max 0 := by
    intro fs hf
    induction fs with
    | nil => exact absurd hf List.not_mem_nil
    | cons g fs ih =>
      rw [List.map_cons, List.foldr_cons]
      rcases List.mem_cons.mp hf with rfl | hf
      · exact Nat.le_max_left _ _
      · exact Nat.le_trans (ih hf) (Nat.le_max_right _ _)
  exact hall St.fields hf

/-- The values nest no deeper than the members. -/
theorem fits_values (hsend : St.Sendable s) (hx : x ∈ St.values s) : x.2.Fits St.depth := by
  obtain ⟨f, hf, hmap⟩ := List.mem_filterMap.mp hx
  obtain ⟨v, hv, rfl⟩ := Option.map_eq_some_iff.mp hmap
  exact (f.fits_value (hsend f hf) hv).mono (St.depth_le hf)

/-- What is left of a member after it has been written and read. -/
theorem foldlM_values (St : Struct P S) (a s : S) :
    (St.values a).foldlM St.store s = St.fields.foldlM (fun s f => f.arrive a s) s := by
  have hall : ∀ fs : List (Field P S), (∀ f ∈ fs, f ∈ St.fields) → ∀ s,
      (fs.filterMap fun f => (f.value a).map fun v => (Tag.mk f.name f.id, v)).foldlM St.store s
        = fs.foldlM (fun s f => f.arrive a s) s := by
    intro fs hfs
    induction fs with
    | nil => exact fun _ => rfl
    | cons f fs ih =>
      intro s
      have hrest := ih fun g hg => hfs g (List.mem_cons_of_mem f hg)
      rw [List.foldlM_cons]
      cases hv : f.value a with
      | none =>
        -- `write` leaves the member out, and the reader keeps what it has.
        have hskip : f.arrive a s = some s := by rw [Field.arrive, hv]
        rw [List.filterMap_cons, hv, hskip]
        exact hrest s
      | some v =>
        have hstore : St.store s (Tag.mk f.name f.id, v) = f.arrive a s := by
          rw [store, find?_id (hfs f List.mem_cons_self), Field.arrive, hv]
          exact if_pos (f.type_value hv)
        rw [List.filterMap_cons, hv]
        show List.foldlM St.store s (_ :: _) = _
        rw [List.foldlM_cons, hstore]
        exact congrArg _ (funext hrest)
  exact hall St.fields (fun _ hf => hf) s

end Struct

/-- `this->x.read(iprot);`, for a member that is a struct itself. -/
def Field.struct (name : String) (id : BitVec 16) (St : Struct P S') (get : S → S')
    (set : S → S' → S) : Field P S where
  name := name
  id := id
  type := .struct
  read s := St.read (get s) >>= fun x => pure (set s x)
  write s := some (St.write (get s))
  store s
    | .struct _ xs => (xs.foldlM St.store (get s)).map (set s)
    | _            => none
  strip
    | .struct _ xs => .struct St.name (St.strip xs)
    | v            => v
  value s := some (.struct St.name (St.values (get s)))
  Sendable s := St.Sendable (get s)
  depth := St.depth + 1
  reads_store {s s' v} _ hfits hstore := by
    cases v <;> simp only [reduceCtorEq, Option.map_eq_some_iff] at hstore
    obtain ⟨x, hx, rfl⟩ := hstore
    have hinner : ∀ {n : Nat} {name : String} {xs : List (Tag × Value D)},
        (Value.struct name xs).Fits n → ∀ x ∈ xs, x.2.Fits n := by
      rintro n name xs (_ | _ | _ | _ | _ | _ | _ | hfits) x hx
      exact (hfits x hx).mono (Nat.le_succ _)
    exact (Struct.reads (hinner hfits) hx _).map
  write_eq s := by
    rw [Struct.write_eq]
    rfl
  type_value h := by
    cases h
    rfl
  fits_value hsend h := by
    cases h
    exact .struct fun x hx => Struct.fits_values hsend hx
  type_strip v := by
    cases v with
    | _ => rfl
  store_strip s v := by
    cases v with
    | struct name xs =>
      exact congrArg (Option.map (set s)) (Struct.foldlM_store_strip (get s) xs).symm
    | _ => rfl
  strip_value {s _} h := by
    cases h
    exact congrArg (Value.struct St.name) (St.strip_values (get s))

theorem Field.arrive_struct (name : String) (id : BitVec 16) (St : Struct P S') (get : S → S')
    (set : S → S' → S) (a s : S) :
    (Field.struct name id St get set).arrive a s
      = (St.fields.foldlM (fun x f => Field.arrive f (get a) x) (get s)).map (set s) := by
  rw [← St.foldlM_values]
  rfl

end

end ThriftBench.Rpc

import Mathlib.Order.Compare
import ThriftBench.UniqueId.Counter

namespace ThriftBench.UniqueId

open Lib

/-!
# UniqueID service — the ids of a serial run

Puts the rank law of `serialRun` and the id law of `postId` together.

* `replies_eq_iff` — two replies of a run are equal exactly when the timestamps agree
  modulo `2 ^ 40` and the ranks modulo `4096`;
* `serial_replies_nodup_iff` — with a clock that does not run backwards and stays below
  `2 ^ 40`, the replies are pairwise distinct exactly when no millisecond is read by more
  than `4096` calls (the counter field keeps three hex digits);
* `serial_order_law` — when a run exits, and in which order its numeric ids stand.
-/

/-- From the initial globals, the `i`-th pair is the `i`-th reading with its rank. -/
theorem issued_init {ts : List Int} {i : Nat} {p : Int × Int}
    (h : (serialRun {} ts).issued[i]? = some p) :
    ts[i]? = some p.1 ∧ -1 ≤ p.1 ∧ p.2 = wrapInt (rank ts i p.1) := by
  obtain ⟨hts, hcur, hp⟩ := issued_getElem? (g := {}) (by decide) h
  refine ⟨hts, hcur, ?_⟩
  rw [hp]
  simp

/-- The counter field of the id is the rank modulo `4096`, wrapped or not. -/
theorem wrapInt_emod (r : Nat) : wrapInt r % 2 ^ 12 = (r % 4096 : Nat) := by
  unfold wrapInt; omega

/-- **Collision law.** Two replies of one run are equal exactly when their timestamps agree
    modulo `2 ^ 40` and their ranks modulo `4096`. -/
theorem replies_eq_iff (m : MachineId) {ts : List Int} {i j : Nat} {p q : Int × Int}
    (hp : (serialRun {} ts).issued[i]? = some p) (hq : (serialRun {} ts).issued[j]? = some q) :
    uniqueIdString m p.1 p.2 = uniqueIdString m q.1 q.2
      ↔ p.1 % 2 ^ 40 = q.1 % 2 ^ 40 ∧ rank ts i p.1 % 4096 = rank ts j q.1 % 4096 := by
  obtain ⟨-, -, hpc⟩ := issued_init hp
  obtain ⟨-, -, hqc⟩ := issued_init hq
  rw [uniqueIdString_eq_iff, idNumber_eq_iff, hpc, hqc, wrapInt_emod, wrapInt_emod, Nat.cast_inj]
  simp only [true_and]

/-- The `i`-th reply is rendered from the `i`-th pair. -/
theorem replies_getElem? (r : SerialRun) (m : MachineId) (i : Nat) :
    (r.replies m)[i]? = r.issued[i]?.map fun p => uniqueIdString m p.1 p.2 :=
  List.getElem?_map

/-! ### Runs of a clock that does not run backwards -/

section Monotone

variable {ts : List Int} (hmono : ts.Pairwise (· ≤ ·)) (hrange : ∀ t ∈ ts, 0 ≤ t ∧ t < 2 ^ 40)

include hmono hrange in
/-- Every call of such a run completes. -/
theorem issued_length_of_monotone : (serialRun {} ts).issued.length = ts.length := by
  obtain ⟨-, hall, hlast⟩ := serialRun_exit {} ts
  by_cases he : (serialRun {} ts).exited = true
  · exfalso
    -- The exiting reading would be negative or below an earlier one.
    obtain ⟨t, ht, hback⟩ := hlast he
    obtain ⟨hi, rfl⟩ := List.getElem?_eq_some_iff.mp ht
    have h0 := (hrange _ (List.getElem_mem hi)).1
    rcases hback with hlt | ⟨j, hj, u, hu, hlt⟩
    · simp only at hlt; omega
    · obtain ⟨hj', rfl⟩ := List.getElem?_eq_some_iff.mp hu
      have hle := (List.pairwise_iff_getElem.mp hmono) j _ hj' hi hj
      omega
  · exact hall (Bool.eq_false_iff.mpr he)

include hmono hrange in
/-- The pair at any position of the run. -/
theorem exists_issued {i : Nat} {t : Int} (h : ts[i]? = some t) :
    ∃ c, (serialRun {} ts).issued[i]? = some (t, c) := by
  obtain ⟨hi, -⟩ := List.getElem?_eq_some_iff.mp h
  have hlen := issued_length_of_monotone hmono hrange
  obtain ⟨p, hp⟩ : ∃ p, (serialRun {} ts).issued[i]? = some p :=
    ⟨_, List.getElem?_eq_getElem (by omega)⟩
  have hpt : p.1 = t := Option.some.inj ((issued_init hp).1.symm.trans h)
  exact ⟨p.2, by rw [hp, ← hpt]⟩

include hrange in
/-- With at most `4096` calls per millisecond the replies are pairwise distinct. -/
theorem replies_nodup_of_count_le (m : MachineId) (hcount : ∀ t, ts.count t ≤ 4096) :
    ((serialRun {} ts).replies m).Nodup := by
  apply List.pairwise_iff_getElem.mpr
  intro i j hi hj hij heq
  simp only [SerialRun.replies, List.length_map] at hi hj
  simp only [SerialRun.replies, List.getElem_map] at heq
  have hp := List.getElem?_eq_getElem hi
  have hq := List.getElem?_eq_getElem hj
  obtain ⟨hts, hrank⟩ := (replies_eq_iff m hp hq).mp heq
  obtain ⟨hpi, -, -⟩ := issued_init hp
  obtain ⟨hqj, -, -⟩ := issued_init hq
  have hpr := hrange _ (List.mem_of_getElem? hpi)
  have hqr := hrange _ (List.mem_of_getElem? hqj)
  -- Equal timestamps, so the later call has the larger rank, both below `4096`.
  have htime : (serialRun {} ts).issued[i].1 = (serialRun {} ts).issued[j].1 := by omega
  rw [htime] at hpi hrank
  have hlt := rank_lt_of_lt hpi hij
  have hbound := rank_lt_count hqj
  have hcap := hcount (serialRun {} ts).issued[j].1
  omega

include hmono hrange in
/-- With more than `4096` calls in one millisecond, the first and the `4097`-th of them
    return the same id. -/
theorem count_le_of_replies_nodup (m : MachineId) (hnodup : ((serialRun {} ts).replies m).Nodup)
    (t : Int) : ts.count t ≤ 4096 := by
  by_contra hcount
  obtain ⟨i, hi, hri⟩ := exists_rank_eq (l := ts) (x := t) (k := 0) (by omega)
  obtain ⟨j, hj, hrj⟩ := exists_rank_eq (l := ts) (x := t) (k := 4096) (by omega)
  obtain ⟨c, hp⟩ := exists_issued hmono hrange hi
  obtain ⟨d, hq⟩ := exists_issued hmono hrange hj
  have heq : uniqueIdString m t c = uniqueIdString m t d :=
    (replies_eq_iff m hp hq).mpr ⟨rfl, by simp only [hri, hrj]⟩
  have hij : i ≠ j := by rintro rfl; omega
  have hilen : i < ((serialRun {} ts).replies m).length := by
    have := (List.getElem?_eq_some_iff.mp hp).1
    simpa [SerialRun.replies] using this
  apply hij
  apply (List.getElem?_inj hilen hnodup).mp
  rw [replies_getElem?, replies_getElem?, hp, hq, Option.map_some, Option.map_some]
  exact congrArg some heq

end Monotone

/-- **Uniqueness of a serial run, exactly.** With clock readings in `[0, 2 ^ 40)` that do
    not decrease, every call returns an id, and the ids are pairwise distinct exactly when
    no millisecond is read by more than `4096` calls. -/
theorem serial_replies_nodup_iff (m : MachineId) (ts : List Int) (hmono : ts.Pairwise (· ≤ ·))
    (hrange : ∀ t ∈ ts, 0 ≤ t ∧ t < 2 ^ 40) :
    ((serialRun {} ts).replies m).length = ts.length ∧
      (((serialRun {} ts).replies m).Nodup ↔ ∀ t, ts.count t ≤ 4096) := by
  constructor
  · rw [SerialRun.replies, List.length_map]
    exact issued_length_of_monotone hmono hrange
  · constructor
    · exact fun hnodup t => count_le_of_replies_nodup hmono hrange m hnodup t
    · exact replies_nodup_of_count_le hrange m

/-- Three calls in two milliseconds. -/
theorem serial_replies_nodup_iff_sample :
    ((serialRun {} [5, 5, 7]).replies (.ofHash 0x10af)).length = 3 ∧
      (((serialRun {} [5, 5, 7]).replies (.ofHash 0x10af)).Nodup
        ↔ ∀ t : Int, [5, 5, 7].count t ≤ 4096) :=
  serial_replies_nodup_iff (.ofHash 0x10af) [5, 5, 7] (by decide)
    (by decide)

/-- A millisecond read by `4097` calls: the clock does not run backwards and stays in
    range, and yet an id is returned twice. -/
theorem serial_replies_collide :
    (List.replicate 4097 (0 : Int)).Pairwise (· ≤ ·) ∧
      (∀ t ∈ List.replicate 4097 (0 : Int), 0 ≤ t ∧ t < 2 ^ 40) ∧
      ¬ ((serialRun {} (List.replicate 4097 0)).replies (.ofHash 0)).Nodup := by
  have hmono : (List.replicate 4097 (0 : Int)).Pairwise (· ≤ ·) :=
    List.pairwise_replicate.mpr (Or.inr le_rfl)
  have hrange : ∀ t ∈ List.replicate 4097 (0 : Int), 0 ≤ t ∧ t < 2 ^ 40 := by
    intro t ht
    rw [(List.mem_replicate.mp ht).2]
    norm_num
  refine ⟨hmono, hrange, fun hnodup => ?_⟩
  have hle := count_le_of_replies_nodup hmono hrange _ hnodup 0
  rw [List.count_replicate_self] at hle
  omega

/-! ### Exit and order -/

/-- Ids are ordered like their fields: first the timestamp modulo `2 ^ 40`, then the
    counter modulo `4096`. -/
theorem idNumber_compare (k : Nat) {t t' c c' : Int} {r r' : Nat}
    (hc : c % 2 ^ 12 = (r % 4096 : Nat)) (hc' : c' % 2 ^ 12 = (r' % 4096 : Nat)) :
    compare (idNumber k t c) (idNumber k t' c')
      = (compare (t % 2 ^ 40) (t' % 2 ^ 40)).then (compare (r % 4096) (r' % 4096)) := by
  have hid : ∀ t c, idNumber k t c
      = k % 2 ^ 11 * 2 ^ 52 + (t % 2 ^ 40).toNat * 2 ^ 12 + (c % 2 ^ 12).toNat := fun _ _ => rfl
  rcases lt_trichotomy (t % 2 ^ 40) (t' % 2 ^ 40) with ht | ht | ht
  · have hlt : idNumber k t c < idNumber k t' c' := by rw [hid, hid]; omega
    rw [compare_lt_iff_lt.mpr hlt, compare_lt_iff_lt.mpr ht]
    rfl
  · rw [compare_eq_iff_eq.mpr ht, Ordering.eq_then]
    rcases lt_trichotomy (r % 4096) (r' % 4096) with hr | hr | hr
    · have hlt : idNumber k t c < idNumber k t' c' := by rw [hid, hid, ht]; omega
      rw [compare_lt_iff_lt.mpr hlt, compare_lt_iff_lt.mpr hr]
    · have heq : idNumber k t c = idNumber k t' c' := by rw [hid, hid, ht]; omega
      rw [compare_eq_iff_eq.mpr heq, compare_eq_iff_eq.mpr hr]
    · have hgt : idNumber k t' c' < idNumber k t c := by rw [hid, hid, ht]; omega
      rw [compare_gt_iff_gt.mpr hgt, compare_gt_iff_gt.mpr hr]
  · have hgt : idNumber k t' c' < idNumber k t c := by rw [hid, hid]; omega
    rw [compare_gt_iff_gt.mpr hgt, compare_gt_iff_gt.mpr ht]
    rfl

/-- The numeric ids of two completed calls, compared. -/
theorem ids_compare (m : MachineId) {ts : List Int} {i j : Nat} {p q : Int × Int}
    (hp : (serialRun {} ts).issued[i]? = some p) (hq : (serialRun {} ts).issued[j]? = some q) :
    ∃ a b, ((serialRun {} ts).ids m)[i]? = some (.ok a) ∧
      ((serialRun {} ts).ids m)[j]? = some (.ok b) ∧
      compare a b = (compare (p.1 % 2 ^ 40) (q.1 % 2 ^ 40)).then
        (compare (rank ts i p.1 % 4096) (rank ts j q.1 % 4096)) := by
  obtain ⟨-, -, hpc⟩ := issued_init hp
  obtain ⟨-, -, hqc⟩ := issued_init hq
  refine ⟨idNumber m.value p.1 p.2, idNumber m.value q.1 q.2, ?_, ?_, ?_⟩
  · simp only [SerialRun.ids, List.getElem?_map, hp, Option.map_some, postId_eq]
  · simp only [SerialRun.ids, List.getElem?_map, hq, Option.map_some, postId_eq]
  · exact idNumber_compare m.value (by rw [hpc, wrapInt_emod]) (by rw [hqc, wrapInt_emod])

/-- **Order law of a serial run.** For any readings: the process exits exactly when some
    reading is below `-1` or below an earlier one, and the completed calls are exactly
    those before the first such reading.  Any two completed calls `i` and `j` have ids
    that compare like `(tᵢ mod 2 ^ 40, kᵢ mod 4096)` and `(tⱼ mod 2 ^ 40, kⱼ mod 4096)`,
    where `k` is the number of earlier calls with the same reading. -/
theorem serial_order_law (m : MachineId) (ts : List Int) :
    ((serialRun {} ts).exited = true ↔ ∃ i, StepsBack (-1) ts i) ∧
      (∀ i < (serialRun {} ts).issued.length, ¬ StepsBack (-1) ts i) ∧
      ((serialRun {} ts).exited = true → StepsBack (-1) ts (serialRun {} ts).issued.length) ∧
      ((serialRun {} ts).exited = false → (serialRun {} ts).issued.length = ts.length) ∧
      ∀ i < (serialRun {} ts).issued.length, ∀ j < (serialRun {} ts).issued.length,
        ∃ tᵢ tⱼ a b, ts[i]? = some tᵢ ∧ ts[j]? = some tⱼ ∧
          ((serialRun {} ts).ids m)[i]? = some (.ok a) ∧
          ((serialRun {} ts).ids m)[j]? = some (.ok b) ∧
          compare a b = (compare (tᵢ % 2 ^ 40) (tⱼ % 2 ^ 40)).then
            (compare ((ts.take i).count tᵢ % 4096) ((ts.take j).count tⱼ % 4096)) := by
  obtain ⟨hfirst, hall, hlast⟩ := serialRun_exit {} ts
  refine ⟨⟨fun he => ⟨_, hlast he⟩, ?_⟩, hfirst, hlast, hall, ?_⟩
  · -- A reading that steps back is not among the completed calls, so some call exited.
    rintro ⟨i, hback⟩
    by_contra he
    have hlen := hall (Bool.eq_false_iff.mpr he)
    have hi : i < ts.length := by
      obtain ⟨t, ht, -⟩ := hback
      exact (List.getElem?_eq_some_iff.mp ht).1
    exact hfirst i (by omega) hback
  · intro i hi j hj
    have hp := List.getElem?_eq_getElem hi
    have hq := List.getElem?_eq_getElem hj
    obtain ⟨a, b, ha, hb, hab⟩ := ids_compare m hp hq
    exact ⟨_, _, a, b, (issued_init hp).1, (issued_init hq).1, ha, hb, hab⟩

end ThriftBench.UniqueId

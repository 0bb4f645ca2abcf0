/-
# LightNet.Foundation.UnorderedMap — hash tables whose iteration order is not ours to know.

A hash table is an association list with distinct keys (`AList`), together with three operations a
`std::unordered_map` has and `AList` lacks: `operator[]` assignment, a change through a pointer to a
mapped value, and a loop that changes every mapped value.

Where a program iterates, the order is decided by the library.  `IterOrder` is that decision: some
rearrangement of the entries, as a function of the entries.
-/
import Mathlib.Data.List.AList

namespace LightNet.Foundation

/-- A hash table from `κ` to `ν`. -/
abbrev UnorderedMap (κ ν : Type) := AList fun _ : κ => ν

/-- The order in which the library walks through a table. -/
structure IterOrder (κ : Type) where
  order : ∀ {ν : Type}, List (κ × ν) → List (κ × ν)
  perm : ∀ {ν : Type} (l : List (κ × ν)), (order l).Perm l

/-- The order of the entries themselves. -/
def IterOrder.entries (κ : Type) : IterOrder κ where
  order := id
  perm := fun l => List.Perm.refl l

/-- The entries the other way round. -/
def IterOrder.reversed (κ : Type) : IterOrder κ where
  order := List.reverse
  perm := List.reverse_perm

/-- The entry of one key first. -/
def IterOrder.first {κ : Type} [DecidableEq κ] (k : κ) : IterOrder κ where
  order := fun l => l.filter (fun e => decide (e.1 = k)) ++ l.filter (fun e => !decide (e.1 = k))
  perm := fun l => List.filter_append_perm (fun e => decide (e.1 = k)) l

namespace UnorderedMap

variable {κ ν : Type}

/-! ## Iteration -/

/-- The key/value pairs, in no order a program may rely on. -/
def pairs (m : UnorderedMap κ ν) : List (κ × ν) := m.entries.map fun e => (e.1, e.2)

/-- The pairs in the order of a range-based `for`. -/
def iterate (ord : IterOrder κ) (m : UnorderedMap κ ν) : List (κ × ν) := ord.order (pairs m)

/-- The mapped values in the order of a range-based `for`. -/
def values (ord : IterOrder κ) (m : UnorderedMap κ ν) : List ν := (iterate ord m).map Prod.snd

/-- The number of entries. -/
def size (m : UnorderedMap κ ν) : Nat := m.entries.length

theorem size_eq_keys_length (m : UnorderedMap κ ν) : size m = m.keys.length := (List.length_map _).symm

@[simp] theorem pairs_length (m : UnorderedMap κ ν) : (pairs m).length = size m := List.length_map _

theorem pairs_keys (m : UnorderedMap κ ν) : (pairs m).map Prod.fst = m.keys := by
  simp [pairs, AList.keys, List.keys]

theorem iterate_perm (ord : IterOrder κ) (m : UnorderedMap κ ν) :
    (iterate ord m).Perm (pairs m) := ord.perm _

@[simp] theorem iterate_length (ord : IterOrder κ) (m : UnorderedMap κ ν) :
    (iterate ord m).length = size m := by
  rw [(iterate_perm ord m).length_eq, pairs_length]

theorem nodup_iterate (ord : IterOrder κ) (m : UnorderedMap κ ν) : (iterate ord m).Nodup := by
  rw [(iterate_perm ord m).nodup_iff]
  refine List.Nodup.of_map Prod.fst ?_
  rw [pairs_keys]
  exact m.keys_nodup

@[simp] theorem values_length (ord : IterOrder κ) (m : UnorderedMap κ ν) :
    (values ord m).length = size m := by
  rw [values, List.length_map, iterate_length]

/-! ## Changing every value -/

/-- Change every mapped value. -/
def mapWithKey (f : κ → ν → ν) (m : UnorderedMap κ ν) : UnorderedMap κ ν where
  entries := m.entries.map fun e => ⟨e.1, f e.1 e.2⟩
  nodupKeys := by
    have h := m.nodupKeys
    simpa [List.NodupKeys, List.keys, Function.comp_def] using h

@[simp] theorem keys_mapWithKey (f : κ → ν → ν) (m : UnorderedMap κ ν) :
    (mapWithKey f m).keys = m.keys := by
  simp [mapWithKey, AList.keys, List.keys]

@[simp] theorem size_mapWithKey (f : κ → ν → ν) (m : UnorderedMap κ ν) :
    size (mapWithKey f m) = size m := List.length_map _

/-- Two changes of every value, one after the other. -/
theorem mapWithKey_mapWithKey (f g : κ → ν → ν) (m : UnorderedMap κ ν) :
    mapWithKey f (mapWithKey g m) = mapWithKey (fun k v => f k (g k v)) m := by
  apply AList.ext
  simp only [mapWithKey, List.map_map, Function.comp_def]

variable [DecidableEq κ]

theorem mapWithKey_insert {k : κ} {m : UnorderedMap κ ν} (h : k ∉ m) (f : κ → ν → ν) (v : ν) :
    mapWithKey f (m.insert k v) = (mapWithKey f m).insert k (f k v) := by
  have h' : k ∉ mapWithKey f m := by
    rw [AList.mem_keys, keys_mapWithKey]
    exact h
  apply AList.ext
  rw [AList.entries_insert_of_notMem h']
  simp only [mapWithKey, AList.entries_insert_of_notMem h, List.map_cons]

theorem mapWithKey_erase (f : κ → ν → ν) (k : κ) (m : UnorderedMap κ ν) :
    mapWithKey f (m.erase k) = (mapWithKey f m).erase k := by
  apply AList.ext
  show (m.entries.kerase k).map (fun e => (⟨e.1, f e.1 e.2⟩ : Sigma fun _ : κ => ν))
    = (m.entries.map fun e => (⟨e.1, f e.1 e.2⟩ : Sigma fun _ : κ => ν)).kerase k
  rw [List.kerase, List.eraseP_map]
  rfl

@[simp] theorem lookup_mapWithKey (f : κ → ν → ν) (m : UnorderedMap κ ν) (k : κ) :
    (mapWithKey f m).lookup k = (m.lookup k).map (f k) :=
  List.dlookup_map₂ (f := f) k

/-! ## Entries -/

theorem mem_pairs_iff {m : UnorderedMap κ ν} {k : κ} {v : ν} :
    (k, v) ∈ pairs m ↔ m.lookup k = some v := by
  have h := AList.mem_lookup_iff (s := m) (a := k) (b := v)
  rw [← Option.mem_def, h, pairs, List.mem_map]
  constructor
  · rintro ⟨⟨k', v'⟩, hmem, heq⟩
    obtain ⟨rfl, rfl⟩ := Prod.mk.inj heq
    exact hmem
  · intro hmem
    exact ⟨⟨k, v⟩, hmem, rfl⟩

/-- A loop that picks out one key does its work once. -/
theorem filter_iterate {ord : IterOrder κ} {m : UnorderedMap κ ν} {k : κ} {v : ν}
    (hk : m.lookup k = some v) {P : κ × ν → Bool}
    (hP : ∀ k' v', m.lookup k' = some v' → (P (k', v') = true ↔ k' = k)) :
    (iterate ord m).filter P = [(k, v)] := by
  apply List.perm_singleton.mp
  rw [List.perm_ext_iff_of_nodup ((nodup_iterate ord m).filter P) (List.nodup_singleton _)]
  rintro ⟨k', v'⟩
  rw [List.mem_filter, (iterate_perm ord m).mem_iff, mem_pairs_iff, List.mem_singleton]
  constructor
  · rintro ⟨hlookup, hpick⟩
    obtain rfl := (hP k' v' hlookup).mp hpick
    rw [Option.some.inj (hlookup.symm.trans hk)]
  · intro heq
    obtain ⟨rfl, rfl⟩ := Prod.mk.inj heq
    exact ⟨hk, (hP k' v' hk).mpr rfl⟩

/-- A search in the order that puts an entry first finds that entry, if it is wanted. -/
theorem find?_iterate_first {m : UnorderedMap κ ν} {k : κ} {v : ν} (hk : m.lookup k = some v)
    {P : κ × ν → Bool} (hP : P (k, v) = true) :
    (iterate (IterOrder.first k) m).find? P = some (k, v) := by
  -- the entries of that key are this one
  have hfront : ∀ e ∈ (pairs m).filter (fun e => decide (e.1 = k)), e = (k, v) := by
    rintro ⟨k', v'⟩ he
    obtain ⟨hmem, heq⟩ := List.mem_filter.mp he
    obtain rfl : k' = k := of_decide_eq_true heq
    obtain rfl := Option.some.inj ((mem_pairs_iff.mp hmem).symm.trans hk)
    rfl
  have hmem : (k, v) ∈ (pairs m).filter (fun e => decide (e.1 = k)) :=
    List.mem_filter.mpr ⟨mem_pairs_iff.mpr hk, decide_eq_true rfl⟩
  show ((pairs m).filter _ ++ (pairs m).filter _).find? P = _
  rw [List.find?_append]
  cases hfind : ((pairs m).filter fun e => decide (e.1 = k)).find? P with
  | none => exact absurd hP (List.find?_eq_none.mp hfind _ hmem)
  | some e =>
      rw [hfront e (List.mem_of_find?_eq_some hfind)]
      rfl

theorem mem_iff_lookup {m : UnorderedMap κ ν} {k : κ} : k ∈ m ↔ ∃ v, m.lookup k = some v := by
  rw [← AList.lookup_isSome, Option.isSome_iff_exists]

/-! ## Changing one value -/

/-- `p->… = …` for the mapped value of `k`; nothing happens when `k` is absent. -/
def modify (k : κ) (f : ν → ν) (m : UnorderedMap κ ν) : UnorderedMap κ ν :=
  mapWithKey (fun k' v => if k' = k then f v else v) m

@[simp] theorem size_modify (k : κ) (f : ν → ν) (m : UnorderedMap κ ν) :
    size (modify k f m) = size m := size_mapWithKey _ m

@[simp] theorem lookup_modify_self (k : κ) (f : ν → ν) (m : UnorderedMap κ ν) :
    (modify k f m).lookup k = (m.lookup k).map f := by
  simp [modify]

@[simp] theorem lookup_modify_ne {k k' : κ} (h : k' ≠ k) (f : ν → ν) (m : UnorderedMap κ ν) :
    (modify k f m).lookup k' = m.lookup k' := by
  simp [modify, h]

/-- A change that leaves the value as it is changes nothing. -/
theorem modify_of_fixed {k : κ} {f : ν → ν} {m : UnorderedMap κ ν} {v : ν}
    (hv : m.lookup k = some v) (hf : f v = v) : modify k f m = m := by
  apply AList.ext
  simp only [modify, mapWithKey]
  conv_rhs => rw [← List.map_id m.entries]
  apply List.map_congr_left
  rintro ⟨k', v'⟩ hmem
  have hlook : m.lookup k' = some v' := AList.mem_lookup_iff.mpr hmem
  by_cases hk : k' = k
  · -- the only entry that `modify` touches
    subst hk
    have : v' = v := Option.some.inj (hlook.symm.trans hv)
    simp [this, hf]
  · simp [hk]

/-- Two changes that agree on the value that is there. -/
theorem modify_congr {k : κ} {f g : ν → ν} {m : UnorderedMap κ ν}
    (h : ∀ v, m.lookup k = some v → f v = g v) : modify k f m = modify k g m := by
  apply AList.ext
  simp only [modify, mapWithKey]
  apply List.map_congr_left
  rintro ⟨k', v'⟩ hmem
  by_cases hk : k' = k
  · subst hk
    simp [h v' (AList.mem_lookup_iff.mpr hmem)]
  · simp [hk]

/-! ## Assignment -/

/-- `m[k] = v`: the mapped value is replaced in place, or a new entry is made. -/
def assign (k : κ) (v : ν) (m : UnorderedMap κ ν) : UnorderedMap κ ν :=
  if k ∈ m then modify k (fun _ => v) m else m.insert k v

@[simp] theorem lookup_assign_self (k : κ) (v : ν) (m : UnorderedMap κ ν) :
    (assign k v m).lookup k = some v := by
  unfold assign
  split
  · -- replaced in place
    rename_i h
    obtain ⟨w, hw⟩ := mem_iff_lookup.mp h
    simp [hw]
  · simp

@[simp] theorem lookup_assign_ne {k k' : κ} (h : k' ≠ k) (v : ν) (m : UnorderedMap κ ν) :
    (assign k v m).lookup k' = m.lookup k' := by
  unfold assign
  split
  · exact lookup_modify_ne h _ m
  · exact AList.lookup_insert_ne h

theorem lookup_assign (k k' : κ) (v : ν) (m : UnorderedMap κ ν) :
    (assign k v m).lookup k' = if k' = k then some v else m.lookup k' := by
  by_cases h : k' = k
  · subst h
    simp
  · simp [h]

/-! ## Sizes and look-ups -/

theorem lookup_erase (k k' : κ) (m : UnorderedMap κ ν) :
    (m.erase k).lookup k' = if k' = k then none else m.lookup k' := by
  by_cases h : k' = k
  · subst h
    simp
  · simp [h, AList.lookup_erase_ne h]

theorem lookup_insert (k k' : κ) (v : ν) (m : UnorderedMap κ ν) :
    (m.insert k v).lookup k' = if k' = k then some v else m.lookup k' := by
  by_cases h : k' = k
  · subst h
    simp
  · simp [h, AList.lookup_insert_ne h]

theorem size_insert {k : κ} {m : UnorderedMap κ ν} (h : k ∉ m) (v : ν) :
    size (m.insert k v) = size m + 1 := by
  rw [size, AList.entries_insert_of_notMem h, List.length_cons, size]

theorem size_erase {k : κ} {m : UnorderedMap κ ν} (h : k ∈ m) : size (m.erase k) + 1 = size m := by
  have hpos : 0 < m.keys.length := List.length_pos_of_mem h
  rw [size_eq_keys_length, AList.keys_erase, List.length_erase_of_mem h, size_eq_keys_length]
  omega

theorem size_assign_of_mem {k : κ} {m : UnorderedMap κ ν} (h : k ∈ m) (v : ν) :
    size (assign k v m) = size m := by
  rw [assign, if_pos h, size_modify]

theorem size_assign_of_notMem {k : κ} {m : UnorderedMap κ ν} (h : k ∉ m) (v : ν) :
    size (assign k v m) = size m + 1 := by
  rw [assign, if_neg h, size_insert h]

end UnorderedMap

end LightNet.Foundation

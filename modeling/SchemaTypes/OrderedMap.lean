/-
  Finite maps that keep the order in which their keys were entered.

  * `OrderedMap κ ν` carries the proof that no key stands twice;
  * `insert` replaces a value in place and puts a new key at the end
    (`get?_insert`, `keys_insert`);
  * `same` compares two maps without regard to order.
-/
import SchemaTypes.SortedSet

namespace SchemaTypes

/-- A finite map with its keys in order of entry. -/
structure OrderedMap (κ ν : Type) where
  entries : List (κ × ν)
  nodup : (entries.map Prod.fst).Nodup
  deriving DecidableEq

namespace OrderedMap

variable {κ ν : Type}

/-- The map without entries. -/
def empty : OrderedMap κ ν := ⟨[], .nil⟩

instance : EmptyCollection (OrderedMap κ ν) := ⟨empty⟩

instance : Inhabited (OrderedMap κ ν) := ⟨∅⟩

/-- The number of entries. -/
def size (m : OrderedMap κ ν) : Nat := m.entries.length

/-- Whether there are no entries. -/
def isEmpty (m : OrderedMap κ ν) : Bool := m.entries.isEmpty

/-- The keys in order. -/
def keys (m : OrderedMap κ ν) : List κ := m.entries.map Prod.fst

/-- The values in the order of their keys. -/
def values (m : OrderedMap κ ν) : List ν := m.entries.map Prod.snd

variable [DecidableEq κ]

/-- The value at a key. -/
def get? (m : OrderedMap κ ν) (k : κ) : Option ν := m.entries.lookup k

/-- A value is there if the entry of its key is. -/
theorem get?_eq_some_iff {m : OrderedMap κ ν} {k : κ} {v : ν} :
    m.get? k = some v ↔ (k, v) ∈ m.entries := by
  obtain ⟨l, hl⟩ := m
  simp only [get?]
  induction l with
  | nil => simp
  | cons e l ih =>
    rw [List.map_cons, List.nodup_cons] at hl
    rw [List.lookup_cons, List.mem_cons, ← ih hl.2]
    by_cases h : k = e.1
    · subst h
      have hnone : ¬List.lookup e.1 l = some v := fun h =>
        hl.1 (List.mem_map.2 ⟨_, (ih hl.2).1 h, rfl⟩)
      simp [hnone, Prod.ext_iff, eq_comm]
    · simp [beq_false_of_ne h, Prod.ext_iff, h]

theorem mem_keys_iff {m : OrderedMap κ ν} {k : κ} : k ∈ m.keys ↔ ∃ v, m.get? k = some v := by
  simp [keys, get?_eq_some_iff]

theorem mem_values_of_get? {m : OrderedMap κ ν} {k : κ} {v : ν} (h : m.get? k = some v) :
    v ∈ m.values :=
  List.mem_map_of_mem (get?_eq_some_iff.1 h)

/-- Whether a key is there. -/
def contains (m : OrderedMap κ ν) (k : κ) : Bool := (m.get? k).isSome

/-- Sets the value of a key: in place, or at the end. -/
def insertEntry (k : κ) (v : ν) : List (κ × ν) → List (κ × ν)
  | [] => [(k, v)]
  | e :: l => if e.1 = k then (k, v) :: l else e :: insertEntry k v l

theorem map_fst_insertEntry (k : κ) (v : ν) (l : List (κ × ν)) :
    (insertEntry k v l).map Prod.fst =
      if k ∈ l.map Prod.fst then l.map Prod.fst else l.map Prod.fst ++ [k] := by
  induction l with
  | nil => simp [insertEntry]
  | cons e l ih =>
    simp only [insertEntry]
    by_cases h : e.1 = k
    · simp [h]
    · have h' : ¬k = e.1 := fun e => h e.symm
      simp only [h, if_false, List.map_cons, ih, List.mem_cons, h', false_or]
      split <;> simp

theorem nodup_insertEntry {k : κ} {v : ν} {l : List (κ × ν)} (h : (l.map Prod.fst).Nodup) :
    ((insertEntry k v l).map Prod.fst).Nodup := by
  rw [map_fst_insertEntry]
  split
  · exact h
  · next hk =>
    exact List.nodup_append.2 ⟨h, by simp, fun a ha b hb => by
      rw [List.mem_singleton.1 hb]
      exact fun e => hk (e ▸ ha)⟩

/-- Sets the value of a key: in place, or at the end. -/
def insert (m : OrderedMap κ ν) (k : κ) (v : ν) : OrderedMap κ ν :=
  ⟨insertEntry k v m.entries, nodup_insertEntry m.nodup⟩

theorem keys_insert (m : OrderedMap κ ν) (k : κ) (v : ν) :
    (m.insert k v).keys = if k ∈ m.keys then m.keys else m.keys ++ [k] :=
  map_fst_insertEntry k v m.entries

theorem mem_keys_insert {m : OrderedMap κ ν} {k k' : κ} {v : ν} :
    k' ∈ (m.insert k v).keys ↔ k' = k ∨ k' ∈ m.keys := by
  rw [keys_insert]
  split
  · next hk => exact ⟨.inr, fun h => h.elim (· ▸ hk) id⟩
  · simp [or_comm]

/-- A new key is entered at the end. -/
theorem entries_insert_of_notMem {m : OrderedMap κ ν} {k : κ} (hk : k ∉ m.keys) (v : ν) :
    (m.insert k v).entries = m.entries ++ [(k, v)] := by
  obtain ⟨l, hl⟩ := m
  show insertEntry k v l = l ++ [(k, v)]
  replace hk : k ∉ l.map Prod.fst := hk
  clear hl
  induction l with
  | nil => rfl
  | cons e l ih =>
    rw [List.map_cons, List.mem_cons, not_or] at hk
    rw [insertEntry, if_neg fun h => hk.1 h.symm, ih hk.2, List.cons_append]

theorem lookup_insertEntry (k k' : κ) (v : ν) (l : List (κ × ν)) :
    (insertEntry k v l).lookup k' = if k' = k then some v else l.lookup k' := by
  induction l with
  | nil =>
    by_cases h : k' = k
    · simp [insertEntry, h]
    · simp [insertEntry, List.lookup_cons, beq_false_of_ne h, h]
  | cons e l ih =>
    obtain ⟨c, w⟩ := e
    simp only [insertEntry]
    by_cases hc : c = k
    · subst hc
      by_cases h : k' = c
      · simp [h]
      · simp [List.lookup_cons, beq_false_of_ne h, h]
    · simp only [hc, if_false]
      by_cases h : k' = c
      · simp [h, hc]
      · simp [List.lookup_cons, beq_false_of_ne h, ih]

@[simp] theorem get?_insert (m : OrderedMap κ ν) (k k' : κ) (v : ν) :
    (m.insert k v).get? k' = if k' = k then some v else m.get? k' :=
  lookup_insertEntry k k' v m.entries

theorem contains_insert {m : OrderedMap κ ν} {k k' : κ} {v : ν} :
    (m.insert k v).contains k' = true ↔ m.contains k' = true ∨ k' = k := by
  rw [contains, get?_insert]
  split
  · next h => exact iff_of_true rfl (.inr h)
  · next h => exact (or_iff_left h).symm

/-- The entries of a list, each entered in turn. -/
def ofList (l : List (κ × ν)) : OrderedMap κ ν := l.foldl (fun m e => m.insert e.1 e.2) ∅

omit [DecidableEq κ] in
/-- The map with every value replaced. -/
def mapValues {μ : Type} (f : ν → μ) (m : OrderedMap κ ν) : OrderedMap κ μ :=
  ⟨m.entries.map fun e => (e.1, f e.2), by
    rw [List.map_map]
    exact m.nodup⟩

theorem get?_mapValues {μ : Type} (f : ν → μ) (m : OrderedMap κ ν) (k : κ) :
    (m.mapValues f).get? k = (m.get? k).map f := by
  obtain ⟨l, hl⟩ := m
  simp only [mapValues, get?]
  clear hl
  induction l with
  | nil => rfl
  | cons e l ih =>
    rw [List.map_cons, List.lookup_cons, List.lookup_cons, ih]
    cases k == e.1 <;> rfl

omit [DecidableEq κ] in
/-- The entries in a different order, by a test whether one key may stand before
    another. -/
def sortKeys (le : κ → κ → Bool) (m : OrderedMap κ ν) : OrderedMap κ ν :=
  ⟨m.entries.mergeSort fun a b => le a.1 b.1,
    ((List.mergeSort_perm _ _).map Prod.fst).nodup_iff.2 m.nodup⟩

/-- Equality without regard to order. -/
def same [DecidableEq ν] (m n : OrderedMap κ ν) : Bool :=
  m.size == n.size && m.entries.all fun e => n.get? e.1 == some e.2

end OrderedMap

end SchemaTypes

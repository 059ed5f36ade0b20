/-
  Finite maps kept as lists of entries with strictly increasing keys.

  * `SortedMap κ ν` has one representation for each map: `SortedMap.ext` makes
    maps with the same entries equal;
  * `get?_insertWith` and `get?_merge` say what insertion and merging leave at
    each key.
-/
import SchemaTypes.SortedSet

namespace SchemaTypes

/-- A finite map, listed by strictly increasing key. -/
structure SortedMap (κ ν : Type) [LT κ] where
  /-- The entries in the order of their keys. -/
  toList : List (κ × ν)
  sorted : (toList.map Prod.fst).Pairwise (· < ·)
  deriving DecidableEq

namespace SortedMap

variable {κ ν : Type} [LT κ]

/-- The map without entries. -/
def empty : SortedMap κ ν := ⟨[], by simp⟩

instance : EmptyCollection (SortedMap κ ν) := ⟨empty⟩

instance : Inhabited (SortedMap κ ν) := ⟨∅⟩

/-- Whether the map has no entries. -/
def isEmpty (m : SortedMap κ ν) : Bool := m.toList.isEmpty

/-- The keys in order. -/
def keys (m : SortedMap κ ν) : List κ := m.toList.map Prod.fst

/-- The value at a key. -/
def get? [DecidableEq κ] (m : SortedMap κ ν) (k : κ) : Option ν := m.toList.lookup k

@[simp] theorem get?_empty [DecidableEq κ] {k : κ} : (∅ : SortedMap κ ν).get? k = none := rfl

/-! ## Insertion -/

/-- Puts `v` at `k`; a value `old` that is there already becomes `f old v`. -/
def insertEntry [DecidableLT κ] (f : ν → ν → ν) (k : κ) (v : ν) : List (κ × ν) → List (κ × ν)
  | [] => [(k, v)]
  | (k', old) :: l =>
    if k < k' then (k, v) :: (k', old) :: l
    else if k' < k then (k', old) :: insertEntry f k v l
    else (k', f old v) :: l

variable [LE κ] [Std.IsLinearOrder κ] [Std.LawfulOrderLT κ]

omit [LE κ] [Std.IsLinearOrder κ] [Std.LawfulOrderLT κ] in
theorem map_fst_insertEntry [DecidableLT κ] (f : ν → ν → ν) (k : κ) (v : ν) (l : List (κ × ν)) :
    (insertEntry f k v l).map Prod.fst = SortedSet.insertSorted k (l.map Prod.fst) := by
  induction l with
  | nil => rfl
  | cons e l ih =>
    obtain ⟨k', old⟩ := e
    simp only [insertEntry, SortedSet.insertSorted, List.map_cons]
    split
    · rfl
    · split
      · simp [ih]
      · rfl

omit [LT κ] [LE κ] [Std.IsLinearOrder κ] [Std.LawfulOrderLT κ] in
theorem lookup_cons_if [DecidableEq κ] {k : κ} {e : κ × ν} {l : List (κ × ν)} :
    (e :: l).lookup k = if k = e.1 then some e.2 else l.lookup k := by
  rw [List.lookup_cons]
  by_cases h : k = e.1
  · simp [h]
  · rw [beq_false_of_ne h, if_neg h]

omit [Std.IsLinearOrder κ] in
theorem lookup_eq_none_of_forall_lt [DecidableEq κ] [Std.IsPreorder κ] {k : κ} {l : List (κ × ν)}
    (h : ∀ x ∈ l.map Prod.fst, k < x) : l.lookup k = none := by
  induction l with
  | nil => rfl
  | cons e l ih =>
    have hne : k ≠ e.1 := fun h' => absurd (h' ▸ h e.1 (by simp)) Std.lt_irrefl
    rw [lookup_cons_if, if_neg hne]
    exact ih fun x hx => h x (by simp at hx ⊢; exact .inr hx)

theorem lookup_insertEntry [DecidableEq κ] [DecidableLT κ] {f : ν → ν → ν} {k k' : κ} {v : ν}
    {l : List (κ × ν)} (hl : (l.map Prod.fst).Pairwise (· < ·)) :
    (insertEntry f k v l).lookup k' =
      if k' = k then some (((l.lookup k).map (f · v)).getD v) else l.lookup k' := by
  induction l with
  | nil => simp only [insertEntry, lookup_cons_if]; rfl
  | cons e l ih =>
    obtain ⟨c, old⟩ := e
    have hc := List.pairwise_cons.1 hl
    simp only [insertEntry]
    split
    · next hkc =>
      have hnone : List.lookup k ((c, old) :: l) = none :=
        lookup_eq_none_of_forall_lt fun x hx => by
          rcases List.mem_cons.1 hx with rfl | hx
          · exact hkc
          · exact Std.lt_trans hkc (hc.1 x hx)
      rw [lookup_cons_if, hnone]
      rfl
    · next hkc =>
      split
      · next hck =>
        have hne : k ≠ c := fun h => absurd (h ▸ hck) Std.lt_irrefl
        simp only [lookup_cons_if, ih hc.2, if_neg hne]
        by_cases h : k' = k
        · simp [h, hne]
        · simp [h]
      · next hck =>
        have e : k = c := Std.le_antisymm (Std.not_lt.1 hck) (Std.not_lt.1 hkc)
        subst e
        simp only [lookup_cons_if, if_true]
        by_cases h : k' = k
        · simp [h]
        · simp [h]

variable [DecidableLT κ]

/-- Puts `v` at `k`; a value `old` that is there already becomes `f old v`. -/
def insertWith (f : ν → ν → ν) (m : SortedMap κ ν) (k : κ) (v : ν) : SortedMap κ ν :=
  ⟨insertEntry f k v m.toList,
    map_fst_insertEntry f k v m.toList ▸ SortedSet.pairwise_insertSorted m.sorted⟩

@[simp] theorem get?_insertWith [DecidableEq κ] {f : ν → ν → ν} {m : SortedMap κ ν} {k k' : κ}
    {v : ν} : (m.insertWith f k v).get? k' =
      if k' = k then some (((m.get? k).map (f · v)).getD v) else m.get? k' :=
  lookup_insertEntry m.sorted

/-- Puts `v` at `k`, replacing what is there. -/
def insert (m : SortedMap κ ν) (k : κ) (v : ν) : SortedMap κ ν := m.insertWith (fun _ v => v) k v

@[simp] theorem get?_insert [DecidableEq κ] {m : SortedMap κ ν} {k k' : κ} {v : ν} :
    (m.insert k v).get? k' = if k' = k then some v else m.get? k' := by
  rw [insert, get?_insertWith]
  cases m.get? k <;> rfl

/-- The entries of a list; of two for one key the later wins. -/
def ofList (l : List (κ × ν)) : SortedMap κ ν := l.foldl (fun m e => m.insert e.1 e.2) ∅

theorem mem_of_get?_ofList [DecidableEq κ] {l : List (κ × ν)} {k : κ} {v : ν}
    (h : (ofList l).get? k = some v) : (k, v) ∈ l := by
  have key : ∀ (l : List (κ × ν)) (m : SortedMap κ ν),
      (l.foldl (fun m e => m.insert e.1 e.2) m).get? k = some v → m.get? k = some v ∨ (k, v) ∈ l := by
    intro l
    induction l with
    | nil => exact fun m h => .inl h
    | cons e l ih =>
      intro m h
      rw [List.foldl_cons] at h
      rcases ih _ h with h | h
      · rw [get?_insert] at h
        split at h
        · next hk =>
          cases h
          exact .inr (by simp [hk])
        · exact .inl h
      · exact .inr (List.mem_cons_of_mem e h)
  exact (key l ∅ h).resolve_left (by simp)

/-- All entries of both maps; where both have a value, `f` of the two. -/
def merge (f : ν → ν → ν) (m n : SortedMap κ ν) : SortedMap κ ν :=
  n.toList.foldl (fun m e => m.insertWith f e.1 e.2) m

/-- What a merge leaves at each key. -/
theorem get?_merge [DecidableEq κ] {f : ν → ν → ν} {m n : SortedMap κ ν} {k : κ} :
    (m.merge f n).get? k =
      match m.get? k, n.get? k with
      | some a, some b => some (f a b)
      | some a, none => some a
      | none, b => b := by
  obtain ⟨l, hl⟩ := n
  simp only [merge]
  induction l generalizing m with
  | nil => simp only [List.foldl_nil, get?, List.lookup_nil]; cases List.lookup k m.toList <;> rfl
  | cons e l ih =>
    have he := List.pairwise_cons.1 hl
    rw [List.foldl_cons, ih he.2, get?_insertWith]
    simp only [get?, lookup_cons_if]
    by_cases h : k = e.1
    · subst h
      have hnone : List.lookup e.1 l = none := lookup_eq_none_of_forall_lt he.1
      simp only [hnone, if_true]
      cases List.lookup e.1 m.toList <;> rfl
    · simp [h]

/-! ## Extensionality -/

omit [DecidableLT κ] in
theorem eq_of_pairwise_of_lookup_eq [DecidableEq κ] {l m : List (κ × ν)}
    (hl : (l.map Prod.fst).Pairwise (· < ·)) (hm : (m.map Prod.fst).Pairwise (· < ·))
    (h : ∀ k, l.lookup k = m.lookup k) : l = m := by
  induction l generalizing m with
  | nil =>
    cases m with
    | nil => rfl
    | cons e m => have := h e.1; simp [lookup_cons_if] at this
  | cons a l ih =>
    cases m with
    | nil => have := h a.1; simp [lookup_cons_if] at this
    | cons b m =>
      have ha := List.pairwise_cons.1 hl
      have hb := List.pairwise_cons.1 hm
      have hnl : List.lookup a.1 l = none := lookup_eq_none_of_forall_lt ha.1
      have hnm : List.lookup b.1 m = none := lookup_eq_none_of_forall_lt hb.1
      have hab : a.1 = b.1 := by
        rcases Std.lt_trichotomy a.1 b.1 with hlt | he | hlt
        · have h1 := h a.1
          rw [lookup_eq_none_of_forall_lt (k := a.1) (l := b :: m)] at h1
          · simp [lookup_cons_if] at h1
          · intro x hx
            rcases List.mem_cons.1 hx with rfl | hx
            · exact hlt
            · exact Std.lt_trans hlt (hb.1 x hx)
        · exact he
        · have h1 := h b.1
          rw [lookup_eq_none_of_forall_lt (k := b.1) (l := a :: l)] at h1
          · simp [lookup_cons_if] at h1
          · intro x hx
            rcases List.mem_cons.1 hx with rfl | hx
            · exact hlt
            · exact Std.lt_trans hlt (ha.1 x hx)
      have hval : a.2 = b.2 := by
        have h1 := h a.1
        simpa [lookup_cons_if, hab] using h1
      have hhead : a = b := Prod.ext hab hval
      subst hhead
      congr 1
      refine ih ha.2 hb.2 fun k => ?_
      by_cases hk : k = a.1
      · rw [hk, hnl, hnm]
      · have h1 := h k
        simpa [lookup_cons_if, hk] using h1

omit [DecidableLT κ] in
/-- Maps with the same value at every key are equal. -/
theorem ext [DecidableEq κ] {m n : SortedMap κ ν} (h : ∀ k, m.get? k = n.get? k) : m = n := by
  cases m with
  | mk l hl =>
    cases n with
    | mk l' hl' =>
      have : l = l' := eq_of_pairwise_of_lookup_eq hl hl' h
      subst this
      rfl

end SortedMap

end SchemaTypes

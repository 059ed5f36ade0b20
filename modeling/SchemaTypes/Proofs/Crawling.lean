/-
  What crawling a document enters.

  * `Json.At`: the values of a document, with the keys that lead to them and the reference that
    the identifiers above them give them;
  * `Scopes.Visits`: the locations at which a crawl comes to the values below a value;
  * `visits_of_mem_entries`, `mem_entries_of_visits`: the objects that a crawl enters;
  * `crawling_indexes`: a crawl that does not fail enters just the objects that have an identifier
    or lie below one that has, each with its place in the document.
-/
import SchemaTypes.Proofs.Admission
import SchemaTypes.Proofs.Following

namespace SchemaTypes

namespace Json

/-! ## Identifiers -/

/-- Whether an object has an identifier. -/
def HasId (fields : Fields) : Prop := ∃ text, fields.lookup "$id" = some (.string text)

/-- The reference of an object: its `$id`, taken relative to the reference that it has from above,
    or else that one. -/
def identify (outer : Option Reference) (fields : Fields) : Option Reference :=
  match fields.lookup "$id" with
  | some (.string text) => some ((Reference.parse text).resolve outer)
  | _ => outer

theorem isSome_identify {outer : Option Reference} {fields : Fields} :
    (identify outer fields).isSome = true ↔ HasId fields ∨ outer.isSome = true := by
  unfold identify
  split
  · next text h => simp [HasId, h]
  · next h => exact (or_iff_right fun ⟨text, ht⟩ => h text ht).symm

theorem identify_of_hasId {outer : Option Reference} {fields : Fields} {text : String}
    (h : fields.lookup "$id" = some (.string text)) :
    identify outer fields = some ((Reference.parse text).resolve outer) := by
  simp only [identify, h]

theorem identify_of_not_hasId {outer : Option Reference} {fields : Fields}
    (h : ¬HasId fields) : identify outer fields = outer := by
  unfold identify
  split
  · next text htext => exact absurd ⟨text, htext⟩ h
  · rfl

/-- The values of a document, with the keys that lead to each, and the reference that it has by the
    identifiers of the objects around it and the keys since the nearest of them. -/
inductive At (doc : Json) : List String → Json → Option Reference → Prop
  | root : At doc [] doc none
  | item {ks : List String} {items : List Json} {outer : Option Reference} {i : Nat} {v : Json}
      (h : At doc ks (.array items) outer) (hi : items[i]? = some v) :
      At doc (ks ++ [toString i]) v (outer.map (·.push [toString i]))
  | field {ks : List String} {fields : Fields} {outer : Option Reference} {k : String} {v : Json}
      (h : At doc ks (.object fields) outer) (hk : (k, v) ∈ fields) :
      At doc (ks ++ [k]) v ((identify outer fields).map (·.push [k]))

theorem size_pos (v : Json) : 0 < v.size := by
  cases v <;> exact Nat.succ_pos _

theorem length_lt_size : ∀ items : List Json, items.length < (array items).size
  | [] => Nat.zero_lt_one
  | v :: items => by
    have hv := v.size_pos
    have h := length_lt_size items
    simp only [size, sizeItems, List.length_cons] at h ⊢
    omega

namespace At

variable {doc v w : Json} {ks : List String} {outer outer' : Option Reference}

theorem keysDistinct (hdoc : doc.KeysDistinct) (h : doc.At ks v outer) : v.KeysDistinct := by
  induction h with
  | root => exact hdoc
  | item h hi ih => exact ItemsKeysDistinct.of_mem ih (List.mem_of_getElem? hi)
  | field h hk ih => exact FieldsKeysDistinct.of_mem ih.2 hk

theorem size_le (h : doc.At ks v outer) : v.size ≤ doc.size := by
  induction h with
  | root => exact Nat.le_refl _
  | item h hi ih =>
    exact Nat.le_trans (Nat.le_of_lt (size_lt_of_mem_items (List.mem_of_getElem? hi))) ih
  | field h hk ih => exact Nat.le_trans (Nat.le_of_lt (size_lt_of_mem_fields hk)) ih

/-- Keys lead to one value. -/
theorem unique (hdoc : doc.KeysDistinct) (h : doc.At ks v outer) (h' : doc.At ks w outer') :
    v = w ∧ outer = outer' := by
  induction h generalizing w outer' with
  | root =>
    generalize hks : ([] : List String) = ks at h'
    cases h' with
    | root => exact ⟨rfl, rfl⟩
    | item | field => simp at hks
  | @item ks items outer i v h hi ih =>
    generalize hks : ks ++ [toString i] = ks' at h'
    cases h' with
    | root => simp at hks
    | item h' hi' =>
      obtain ⟨rfl, heqi⟩ := List.append_inj' hks rfl
      obtain rfl := toString_injective (List.singleton_inj.1 heqi)
      obtain ⟨heq, rfl⟩ := ih h'
      cases heq
      exact ⟨Option.some.inj (hi.symm.trans hi'), rfl⟩
    | field h' hk' =>
      obtain ⟨rfl, -⟩ := List.append_inj' hks rfl
      cases (ih h').1
  | @field ks fields outer k v h hk ih =>
    generalize hks : ks ++ [k] = ks' at h'
    cases h' with
    | root => simp at hks
    | item h' hi' =>
      obtain ⟨rfl, -⟩ := List.append_inj' hks rfl
      cases (ih h').1
    | field h' hk' =>
      obtain ⟨rfl, heqk⟩ := List.append_inj' hks rfl
      obtain rfl := List.singleton_inj.1 heqk
      obtain ⟨heq, rfl⟩ := ih h'
      cases heq
      have hd := (h.keysDistinct hdoc).1
      have hv : fields.lookup k = some v := lookup_of_mem hd hk
      have hw : fields.lookup k = some w := lookup_of_mem hd hk'
      exact ⟨Option.some.inj (hv.symm.trans hw), rfl⟩

theorem ne_append_singleton_of_prefix {ks ks' : List String} {k : String} (h : ks' <+: ks) :
    ks' ≠ ks ++ [k] := by
  rintro rfl
  exact absurd h.length_le (by simp)

/-- A value has a reference if an object around it has an identifier. -/
theorem isSome_iff (hdoc : doc.KeysDistinct) (h : doc.At ks v outer) : outer.isSome = true ↔
    ∃ ks' fields outer', ks' <+: ks ∧ ks' ≠ ks ∧ doc.At ks' (.object fields) outer' ∧
      HasId fields := by
  induction h with
  | root =>
    simp only [Option.isSome_none, Bool.false_eq_true, false_iff, List.prefix_nil]
    rintro ⟨ks', -, -, rfl, hne, -⟩
    exact hne rfl
  | @item ks items outer i v h hi ih =>
    rw [Option.isSome_map, ih]
    constructor
    · rintro ⟨ks', fields, outer', hpre, -, hat, hid⟩
      exact ⟨ks', fields, outer', hpre.trans (List.prefix_append ..),
        ne_append_singleton_of_prefix hpre, hat, hid⟩
    · rintro ⟨ks', fields, outer', hpre, hne, hat, hid⟩
      rcases List.prefix_concat_iff.1 hpre with rfl | hpre
      · exact absurd rfl hne
      · refine ⟨ks', fields, outer', hpre, ?_, hat, hid⟩
        rintro rfl
        cases (hat.unique hdoc h).1
  | @field ks fields outer k v h hk ih =>
    rw [Option.isSome_map, isSome_identify, ih]
    constructor
    · rintro (hid | ⟨ks', fields', outer', hpre, -, hat, hid⟩)
      · exact ⟨ks, fields, outer, List.prefix_append .., by simp, h, hid⟩
      · exact ⟨ks', fields', outer', hpre.trans (List.prefix_append ..),
          ne_append_singleton_of_prefix hpre, hat, hid⟩
    · rintro ⟨ks', fields', outer', hpre, hne, hat, hid⟩
      rcases List.prefix_concat_iff.1 hpre with rfl | hpre
      · exact absurd rfl hne
      · by_cases heq : ks' = ks
        · subst heq
          cases (hat.unique hdoc h).1
          exact .inl hid
        · exact .inr ⟨ks', fields', outer', hpre, heq, hat, hid⟩

/-- The path of the keys leads to the value. -/
theorem walk_eq (hdoc : doc.KeysDistinct) (hsize : doc.size ≤ UInt64.size)
    (h : doc.At ks v outer) (r : Reference) :
    Reference.walk r doc [] doc (.root :: ks.map .key) = .ok v := by
  have hstep : ∀ {ks : List String} {v w : Json} {k : String},
      Reference.walk r doc [] doc (.root :: ks.map .key) = .ok v →
      (∀ place, Reference.lookupKey k v place = .ok w) →
      Reference.walk r doc [] doc (.root :: (ks ++ [k]).map .key) = .ok w := by
    intro ks v w k hv hw
    rw [List.map_append, ← List.cons_append, Reference.walk_append, hv]
    exact except_bind_eq_ok.2 ⟨v, rfl, except_bind_eq_ok.2 ⟨w, hw _, rfl⟩⟩
  induction h with
  | root => rfl
  | @item ks items outer i v h hi ih =>
    have hlt : i < UInt64.size := by
      have hi := (List.getElem?_eq_some_iff.1 hi).1
      have hitems := h.size_le
      have hle : items.length < (Json.array items).size := length_lt_size items
      omega
    exact hstep ih (Reference.lookupKey_array (decimal_toString i) hlt hi)
  | @field ks fields outer k v h hk ih =>
    exact hstep ih (Reference.lookupKey_object (lookup_of_mem (h.keysDistinct hdoc).1 hk))

theorem lookup_eq (hdoc : doc.KeysDistinct) (hsize : doc.size ≤ UInt64.size)
    (h : doc.At ks v outer) (hv : v.isSchema = true) (a : Option Address) :
    Reference.lookup ⟨a, .root :: ks.map .key⟩ doc = .ok v :=
  Reference.lookup_eq_ok_iff.2 ⟨h.walk_eq hdoc hsize _, hv⟩

end At

end Json

/-! ## What a crawl comes to -/

namespace Scopes

/-- From a value at a location a crawl comes to a value at another. -/
inductive Visits : Location → Json → Location → Json → Prop
  | here {l : Location} {v : Json} : Visits l v l v
  | item {l l' : Location} {items : List Json} {i : Nat} {v w : Json} (hi : items[i]? = some v)
      (h : Visits (l.push [toString i]) v l' w) : Visits l (.array items) l' w
  | field {l inner l' : Location} {fields : Json.Fields} {k : String} {v w : Json}
      (hid : l.withId (fields.lookup "$id") = .ok inner) (hk : (k, v) ∈ fields)
      (h : Visits (inner.push [k]) v l' w) : Visits l (.object fields) l' w

/-- An object is entered with its location, under the reference that it has by its identifier. -/
def Enters (l : Location) (fields : Json.Fields) (r : Reference) : Prop :=
  ∃ inner, l.withId (fields.lookup "$id") = .ok inner ∧ inner.hasId = true ∧ inner.reached = r

variable {l l' : Location} {v w : Json} {e : Reference × Location}

theorem Visits.trans {l'' : Location} {x : Json} (h : Visits l v l' w) (h' : Visits l' w l'' x) :
    Visits l v l'' x := by
  induction h with
  | here => exact h'
  | item hi _ ih => exact .item hi (ih h')
  | field hid hk _ ih => exact .field hid hk (ih h')

/-! ### Entries -/

namespace Crawl

theorem mem_andThen {c next : Crawl} (h : e ∈ (c.andThen next).entries) :
    e ∈ c.entries ∨ e ∈ next.entries := by
  unfold andThen at h
  split at h
  · exact .inl h
  · exact List.mem_append.1 h

theorem andThen_of_error {c next : Crawl} (h : (c.andThen next).error = none) :
    c.error = none ∧ next.error = none ∧ (c.andThen next).entries = c.entries ++ next.entries := by
  unfold andThen at h ⊢
  split at h
  · next hc => simp [h] at hc
  · next hc =>
    rw [if_neg hc]
    exact ⟨by simpa using hc, h, rfl⟩

end Crawl

theorem mem_entriesOfItems {items : List Json} {i : Nat}
    (h : e ∈ (entriesOfItems l i items).entries) :
    ∃ j v, items[j]? = some v ∧ e ∈ (entries (l.push [toString (i + j)]) v).entries := by
  induction items generalizing i with
  | nil => exact absurd h List.not_mem_nil
  | cons v rest ih =>
    rw [entriesOfItems] at h
    rcases Crawl.mem_andThen h with h | h
    · exact ⟨0, v, rfl, h⟩
    · obtain ⟨j, w, hj, hw⟩ := ih h
      exact ⟨j + 1, w, hj, by rwa [← Nat.add_assoc, Nat.add_right_comm]⟩

theorem mem_entriesOfFields {fields : Json.Fields} (h : e ∈ (entriesOfFields l fields).entries) :
    ∃ k v, (k, v) ∈ fields ∧ e ∈ (entries (l.push [k]) v).entries := by
  induction fields with
  | nil => exact absurd h List.not_mem_nil
  | cons f rest ih =>
    obtain ⟨k, v⟩ := f
    rw [entriesOfFields] at h
    rcases Crawl.mem_andThen h with h | h
    · exact ⟨k, v, List.mem_cons_self, h⟩
    · obtain ⟨k', w, hk', hw⟩ := ih h
      exact ⟨k', w, List.mem_cons_of_mem _ hk', hw⟩

/-- Whatever a crawl enters, even one that fails, is an object that it comes to. -/
theorem visits_of_mem_entries {v : Json} {l : Location} (h : e ∈ (entries l v).entries) :
    ∃ fields, Visits l v e.2 (.object fields) ∧ Enters e.2 fields e.1 := by
  match v with
  | .array items =>
    rw [entries] at h
    obtain ⟨i, w, hi, hw⟩ := mem_entriesOfItems h
    have hlt := Json.size_lt_of_mem_items (List.mem_of_getElem? hi)
    rw [Nat.zero_add] at hw
    obtain ⟨fields, hvisits, henters⟩ := visits_of_mem_entries hw
    exact ⟨fields, .item hi hvisits, henters⟩
  | .object fields =>
    rw [entries] at h
    split at h
    · exact absurd h List.not_mem_nil
    · next inner hid =>
      rcases Crawl.mem_andThen h with h | h
      · split at h
        · next hhas =>
          obtain rfl := List.mem_singleton.1 h
          exact ⟨fields, .here, inner, hid, hhas, rfl⟩
        · exact absurd h List.not_mem_nil
      · obtain ⟨k, w, hk, hw⟩ := mem_entriesOfFields h
        have hlt := Json.size_lt_of_mem_fields hk
        obtain ⟨fields', hvisits, henters⟩ := visits_of_mem_entries hw
        exact ⟨fields', .field hid hk hvisits, henters⟩
  | .null | .bool _ | .number _ | .string _ => exact absurd h List.not_mem_nil
termination_by v.size

theorem entriesOfItems_of_error {items : List Json} {i j : Nat}
    (h : (entriesOfItems l i items).error = none) (hj : items[j]? = some v) :
    (entries (l.push [toString (i + j)]) v).error = none ∧
      (entries (l.push [toString (i + j)]) v).entries ⊆ (entriesOfItems l i items).entries := by
  induction items generalizing i j with
  | nil => cases hj
  | cons w rest ih =>
    rw [entriesOfItems] at h ⊢
    obtain ⟨hw, hrest, heq⟩ := Crawl.andThen_of_error h
    rw [heq]
    cases j with
    | zero =>
      cases hj
      exact ⟨hw, List.subset_append_left ..⟩
    | succ j =>
      obtain ⟨herror, hsub⟩ := ih hrest hj
      rw [Nat.add_right_comm, Nat.add_assoc] at herror hsub
      exact ⟨herror, List.subset_append_of_subset_right _ hsub⟩

theorem entriesOfFields_of_error {fields : Json.Fields} {k : String}
    (h : (entriesOfFields l fields).error = none) (hk : (k, v) ∈ fields) :
    (entries (l.push [k]) v).error = none ∧
      (entries (l.push [k]) v).entries ⊆ (entriesOfFields l fields).entries := by
  induction fields with
  | nil => exact absurd hk List.not_mem_nil
  | cons f rest ih =>
    obtain ⟨k', w⟩ := f
    rw [entriesOfFields] at h ⊢
    obtain ⟨hw, hrest, heq⟩ := Crawl.andThen_of_error h
    rw [heq]
    rcases List.mem_cons.1 hk with hk | hk
    · cases hk
      exact ⟨hw, List.subset_append_left ..⟩
    · obtain ⟨herror, hsub⟩ := ih hrest hk
      exact ⟨herror, List.subset_append_of_subset_right _ hsub⟩

/-- A crawl that does not fail does not fail wherever it comes to, and has the entries from
    there. -/
theorem entries_of_visits (h : Visits l v l' w) (herror : (entries l v).error = none) :
    (entries l' w).error = none ∧ (entries l' w).entries ⊆ (entries l v).entries := by
  induction h with
  | here => exact ⟨herror, List.Subset.refl _⟩
  | @item l l' items i v w hi h ih =>
    rw [entries] at herror ⊢
    have hitem := entriesOfItems_of_error herror hi
    rw [Nat.zero_add] at hitem
    exact ⟨(ih hitem.1).1, List.Subset.trans (ih hitem.1).2 hitem.2⟩
  | @field l inner l' fields k v w hid hk h ih =>
    rw [entries, hid] at herror ⊢
    dsimp only at herror ⊢
    obtain ⟨-, hrest, heq⟩ := Crawl.andThen_of_error herror
    obtain ⟨hfield, hsub⟩ := entriesOfFields_of_error hrest hk
    rw [heq]
    exact ⟨(ih hfield).1,
      List.subset_append_of_subset_right _ (List.Subset.trans (ih hfield).2 hsub)⟩

/-- A crawl that does not fail takes the identifier of every object that it comes to, and enters
    the object if it is identified. -/
theorem mem_entries_of_visits {fields : Json.Fields} (h : Visits l v l' (.object fields))
    (herror : (entries l v).error = none) :
    ∃ inner, l'.withId (fields.lookup "$id") = .ok inner ∧
      (inner.hasId = true → (inner.reached, l') ∈ (entries l v).entries) := by
  obtain ⟨herror', hsub⟩ := entries_of_visits h herror
  rw [entries] at herror' hsub
  split at herror'
  · cases herror'
  · next inner hid =>
    rw [hid] at hsub
    refine ⟨inner, hid, fun hhas => hsub ?_⟩
    dsimp only
    rw [(Crawl.andThen_of_error herror').2.2, if_pos hhas]
    exact List.mem_append_left _ (List.mem_singleton_self _)

/-! ### Places in a document -/

/-- The location of the value that keys lead to in the document at an address. -/
def locate (a : Address) (ks : List String) (outer : Option Reference) : Location where
  canonical := ⟨some a, .root :: ks.map .key⟩
  reached := outer.getD ⟨none, .root :: ks.map .key⟩
  hasId := outer.isSome

variable {a : Address} {doc : Json} {ks : List String} {outer : Option Reference}
  {fields : Json.Fields}

theorem push_locate (k : String) : (locate a ks outer).push [k] =
    locate a (ks ++ [k]) (outer.map (·.push [k])) := by
  cases outer <;>
    simp [locate, Location.push, Location.append, Reference.push, Reference.append]

theorem resolve_none (r : Reference) : r.resolve none = r := by
  obtain ⟨address, path⟩ := r
  cases address <;> rfl

/-- After its identifier an object is located by its reference. -/
theorem withId_locate {inner : Location}
    (h : (locate a ks outer).withId (fields.lookup "$id") = .ok inner) :
    inner = locate a ks (Json.identify outer fields) := by
  unfold Location.withId at h
  split at h
  · next text htext =>
    rw [Json.identify_of_hasId htext]
    cases outer with
    | some r =>
      cases h
      rfl
    | none =>
      have hhas : ¬(locate a ks none).hasId = true := Bool.false_ne_true
      rw [if_neg hhas] at h
      split at h
      · cases h
      · cases h
        simp [locate, resolve_none]
  · next hid =>
    cases h
    rw [Json.identify_of_not_hasId fun ⟨text, htext⟩ => hid text htext]

/-- The locations that a crawl of a document comes to are those of its values. -/
theorem at_of_visits (hat : doc.At ks v outer) (h : Visits (locate a ks outer) v l w) :
    ∃ ks' outer', doc.At ks' w outer' ∧ l = locate a ks' outer' := by
  generalize hl : locate a ks outer = l₀ at h
  induction h generalizing ks outer with
  | here => exact ⟨ks, outer, hat, hl.symm⟩
  | item hi h ih =>
    subst hl
    exact ih (hat.item hi) (push_locate _).symm
  | field hid hk h ih =>
    subst hl
    obtain rfl := withId_locate hid
    exact ih (hat.field hk) (push_locate _).symm

/-- A crawl that does not fail comes to all values of the document. -/
theorem visits_of_at (herror : (entries (rootLocation a) doc).error = none)
    (h : doc.At ks v outer) : Visits (rootLocation a) doc (locate a ks outer) v := by
  induction h with
  | root => exact .here
  | item h hi ih => exact ih.trans (push_locate (a := a) _ ▸ .item hi .here)
  | field h hk ih =>
    obtain ⟨inner, hid, -⟩ := mem_entries_of_visits ih herror
    obtain rfl := withId_locate hid
    exact ih.trans (push_locate (a := a) _ ▸ .field hid hk .here)

/-! ### The index -/

/-- Whatever a crawl of a document enters, even one that fails, is one of its objects, under the
    reference that it has. -/
theorem at_of_mem_entries (h : e ∈ (entries (rootLocation a) doc).entries) :
    ∃ ks fields outer, doc.At ks (.object fields) outer ∧ e.2 = locate a ks outer ∧
      Json.identify outer fields = some e.1 ∧ Enters e.2 fields e.1 := by
  obtain ⟨fields, hvisits, henters⟩ := visits_of_mem_entries h
  obtain ⟨ks, outer, hat, heq⟩ := at_of_visits .root hvisits
  refine ⟨ks, fields, outer, hat, heq, ?_, henters⟩
  obtain ⟨inner, hid, hhas, hreached⟩ := henters
  rw [heq] at hid
  obtain rfl := withId_locate hid
  obtain ⟨r, hr⟩ := Option.isSome_iff_exists.1 hhas
  rw [← hreached, hr]
  rfl

/-- A crawl that does not fail enters every object that has a reference. -/
theorem mem_entries_of_at (herror : (entries (rootLocation a) doc).error = none)
    (h : doc.At ks (.object fields) outer) {r : Reference}
    (hr : Json.identify outer fields = some r) :
    (r, locate a ks outer) ∈ (entries (rootLocation a) doc).entries := by
  obtain ⟨inner, hid, hmem⟩ := mem_entries_of_visits (visits_of_at herror h) herror
  obtain rfl := withId_locate hid
  have hmem := hmem (Option.isSome_iff_exists.2 ⟨r, hr⟩)
  rwa [hr] at hmem

/-- What is left by a first crawl of a document that does not fail. -/
theorem addDocument_empty {s : Scopes} (h : empty.addDocument doc a = (.ok true, s)) :
    (entries (rootLocation a) doc).error = none ∧
      s.places = (entries (rootLocation a) doc).entries.reverse ∧ s.crawled = [a] := by
  unfold addDocument at h
  rw [if_neg (by simp [isCrawled, empty])] at h
  dsimp only at h
  split at h
  · cases h
  · next hnone =>
    cases h
    exact ⟨hnone, by simp [empty], rfl⟩

theorem exists_lookup_of_mem {places : List (Reference × Location)} (h : e ∈ places) :
    ∃ l, places.lookup e.1 = some l := by
  refine Option.ne_none_iff_exists'.1 fun hnone => ?_
  have hne := List.lookup_eq_none_iff.1 hnone e h
  rw [bne_self_eq_false'] at hne
  cases hne

/-- What is found in the index is one of the objects of the document. -/
theorem at_of_lookup {s : Scopes} {r : Reference}
    (h : empty.addDocument doc a = (.ok true, s)) (hr : s.places.lookup r = some l) :
    ∃ ks fields outer, doc.At ks (.object fields) outer ∧ l = locate a ks outer ∧
      Json.identify outer fields = some r ∧ Enters l fields r := by
  rw [(addDocument_empty h).2.1] at hr
  exact at_of_mem_entries (e := (r, l)) (List.mem_reverse.1 (mem_of_lookup hr))

/-- Every object that has a reference is in the index, or another that has the same one. -/
theorem exists_lookup_of_at {s : Scopes} {r : Reference}
    (h : empty.addDocument doc a = (.ok true, s)) (hat : doc.At ks (.object fields) outer)
    (hr : Json.identify outer fields = some r) : ∃ l, s.places.lookup r = some l := by
  obtain ⟨herror, hplaces, -⟩ := addDocument_empty h
  rw [hplaces]
  exact exists_lookup_of_mem (List.mem_reverse.2 (mem_entries_of_at herror hat hr))

/-- The keys lead to the one object that has the reference, if there is any. -/
def IsOnly (doc : Json) (ks : List String) (r : Reference) : Prop :=
  ∀ ks' fields outer, doc.At ks' (.object fields) outer → Json.identify outer fields = some r →
    ks' = ks

/-- Whether keys lead to the only object can be read off the entries. -/
theorem isOnly_of_entries (a : Address) {r : Reference}
    (herror : (entries (rootLocation a) doc).error = none)
    (h : ∀ e ∈ (entries (rootLocation a) doc).entries,
      e.1 = r → e.2.canonical.path = .root :: ks.map .key) : IsOnly doc ks r := by
  intro ks' fields outer hat hr
  have hpath := h _ (mem_entries_of_at herror hat hr) rfl
  exact (List.map_inj_right fun _ _ => Step.key.inj).1 (List.cons.inj hpath).2

/-- The only object that has a reference is found under it. -/
theorem lookup_of_isOnly {s : Scopes} {r : Reference} (hkeys : doc.KeysDistinct)
    (h : empty.addDocument doc a = (.ok true, s)) (hat : doc.At ks (.object fields) outer)
    (hr : Json.identify outer fields = some r) (honly : IsOnly doc ks r) :
    s.places.lookup r = some (locate a ks outer) := by
  obtain ⟨l, hl⟩ := exists_lookup_of_at h hat hr
  obtain ⟨ks', fields', outer', hat', rfl, hr', -⟩ := at_of_lookup h hl
  obtain rfl := honly ks' fields' outer' hat' hr'
  rw [hl, (hat.unique hkeys hat').2]

/-- **A crawl that does not fail indexes the document.**  Every entry is the place of an object,
    under the reference that the object's own `$id` gives it there.  Conversely an object is
    entered under the reference that the identifiers around it give it, if there are any, and if
    no other object has that reference, its place is found under it. -/
theorem crawling_indexes {s : Scopes} (hkeys : doc.KeysDistinct) (hsize : doc.size ≤ UInt64.size)
    (h : empty.addDocument doc a = (.ok true, s)) :
    (∀ r l, s.places.lookup r = some l → l.canonical.address = some a ∧
      ∃ fields, l.canonical.lookup doc = .ok (.object fields) ∧
        ∃ inner, l.withId (fields.lookup "$id") = .ok inner ∧
          inner.reached = r ∧ inner.hasId = true) ∧
    (∀ ks fields outer, doc.At ks (.object fields) outer →
      (Json.HasId fields ∨ ∃ ks' fields' outer', ks' <+: ks ∧ ks' ≠ ks ∧
        doc.At ks' (.object fields') outer' ∧ Json.HasId fields') →
      ∃ r, Json.identify outer fields = some r ∧ (∃ l, s.places.lookup r = some l) ∧
        (IsOnly doc ks r →
          ∃ l, s.places.lookup r = some l ∧ l.canonical = ⟨some a, .root :: ks.map .key⟩)) := by
  constructor
  · intro r l hr
    obtain ⟨ks, fields, outer, hat, rfl, -, inner, hid, hhas, hreached⟩ := at_of_lookup h hr
    exact ⟨rfl, fields, hat.lookup_eq hkeys hsize rfl _, inner, hid, hreached, hhas⟩
  · intro ks fields outer hat hscope
    have hsome : (Json.identify outer fields).isSome = true :=
      Json.isSome_identify.2 (hscope.imp_right (hat.isSome_iff hkeys).2)
    obtain ⟨r, hr⟩ := Option.isSome_iff_exists.1 hsome
    exact ⟨r, hr, exists_lookup_of_at h hat hr,
      fun honly => ⟨_, lookup_of_isOnly hkeys h hat hr honly, rfl⟩⟩

/-- A document with an identifier at the root, and one below. -/
def shelf : Json :=
  .object [("$id", .string "x:/shelf"), ("label", .object []),
    ("box", .object [("$id", .string "box"), ("lid", .object [])])]

/-- What a crawl of the document leaves. -/
def shelfCrawl : Except ConversionError Bool × Scopes :=
  empty.addDocument shelf (.relative "shelf.json")

theorem shelfCrawl_eq : shelfCrawl = (.ok true, shelfCrawl.2) := rfl

theorem keysDistinct_shelf : shelf.KeysDistinct := by
  simp [shelf, Json.KeysDistinct, Json.FieldsKeysDistinct]

/-- The lid is found under the identifier of the box, which is relative to that of the shelf. -/
theorem crawling_indexes_shelf : shelfCrawl.1 = .ok true ∧
    ∃ l, shelfCrawl.2.places.lookup ((Reference.parse "x:/box").push ["lid"]) = some l ∧
      l.canonical = ⟨some (.relative "shelf.json"), [.root, .key "box", .key "lid"]⟩ := by
  have hbox : shelf.At ["box"] _ _ := .field .root (.tail _ (.tail _ (.head _)))
  have hlid : shelf.At ["box", "lid"] (.object []) _ := .field hbox (.tail _ (.head _))
  have hbelow : ∃ ks' fields' outer', ks' <+: ["box", "lid"] ∧ ks' ≠ ["box", "lid"] ∧
      shelf.At ks' (.object fields') outer' ∧ Json.HasId fields' :=
    ⟨["box"], _, _, ⟨["lid"], rfl⟩, by decide, hbox, "box", rfl⟩
  obtain ⟨-, hcomplete⟩ := crawling_indexes keysDistinct_shelf (by decide) shelfCrawl_eq
  obtain ⟨r, hr, -, hplace⟩ := hcomplete _ _ _ hlid (.inr hbelow)
  have hlidReference : Json.identify _ [] = some ((Reference.parse "x:/box").push ["lid"]) := rfl
  cases hlidReference.symm.trans hr
  exact ⟨rfl, hplace (isOnly_of_entries (.relative "shelf.json") rfl (by decide +kernel))⟩

end Scopes

end SchemaTypes

/-
  Conversion comes to an end.

  A reference may lead anywhere, but only to places in the documents that are served, by paths that
  stand in these or in the references of the top levels.  A conversion goes down in a document, or
  to one of these finitely many targets; it goes on there only if the target has no type, and then
  the target has one.

  * `Json.pathsAt`: the paths that a document gives rise to, one for each of its values;
  * `Resolver.Known`: all that a resolver knows is of given documents, which every move keeps;
  * `targets`, `waiting`: where references lead, and the targets that have no type;
  * `Affords`: a depth allows for a schema; once it is entered, it allows for what lies in the
    schema and for where that refers to (`Affords.pended`);
  * `alike_typeOf`: such a depth is never used up, and a higher one does the same;
  * `conversion_terminates`: so it is for top levels from the depth `depthFor` on.
-/
import Mathlib.Data.Finset.Card
import SchemaTypes.Proofs.Alike
import SchemaTypes.Proofs.Crawling

namespace SchemaTypes

/-! ## Paths of a document -/

namespace Json

mutual

/-- A path for each value in a value that has a path: the one that the text of a string stands for,
    and the path of any other value. -/
def pathsAt (path : List Step) : Json → List (List Step)
  | string text => [(Reference.parse text).path]
  | array items => path :: pathsOfItems path 0 items
  | object fields => path :: pathsOfFields path fields
  | _ => [path]

/-- The paths for items, the first of which has index `i`. -/
def pathsOfItems (path : List Step) (i : Nat) : List Json → List (List Step)
  | [] => []
  | v :: rest => pathsAt (path ++ [.key (toString i)]) v ++ pathsOfItems path (i + 1) rest

/-- The paths for the values of fields. -/
def pathsOfFields (path : List Step) : List (String × Json) → List (List Step)
  | [] => []
  | (k, v) :: rest => pathsAt (path ++ [.key k]) v ++ pathsOfFields path rest

end

mutual

theorem length_pathsAt : ∀ (path : List Step) (v : Json), (pathsAt path v).length = v.size
  | path, array items => by
    rw [pathsAt, List.length_cons, length_pathsOfItems, size]
  | path, object fields => by
    rw [pathsAt, List.length_cons, length_pathsOfFields, size]
  | _, null | _, bool _ | _, number _ | _, string _ => rfl

theorem length_pathsOfItems : ∀ (path : List Step) (i : Nat) (items : List Json),
    (pathsOfItems path i items).length = sizeItems items
  | _, _, [] => rfl
  | path, i, v :: rest => by
    rw [pathsOfItems, List.length_append, length_pathsAt, length_pathsOfItems, sizeItems]

theorem length_pathsOfFields : ∀ (path : List Step) (fields : Fields),
    (pathsOfFields path fields).length = sizeFields fields
  | _, [] => rfl
  | path, (k, v) :: rest => by
    rw [pathsOfFields, List.length_append, length_pathsAt, length_pathsOfFields, sizeFields]

end

theorem pathsAt_subset_items (path : List Step) {items : List Json} {i j : Nat} {v : Json}
    (hj : items[j]? = some v) :
    pathsAt (path ++ [.key (toString (i + j))]) v ⊆ pathsOfItems path i items := by
  induction items generalizing i j with
  | nil => cases hj
  | cons w rest ih =>
    rw [pathsOfItems]
    cases j with
    | zero =>
      cases hj
      exact List.subset_append_left ..
    | succ j =>
      have hsub := ih (i := i + 1) hj
      rw [Nat.add_right_comm, Nat.add_assoc] at hsub
      exact List.subset_append_of_subset_right _ hsub

theorem pathsAt_subset_fields {path : List Step} {fields : Fields} {k : String} {v : Json}
    (hk : (k, v) ∈ fields) : pathsAt (path ++ [.key k]) v ⊆ pathsOfFields path fields := by
  induction fields with
  | nil => exact absurd hk List.not_mem_nil
  | cons e rest ih =>
    obtain ⟨k', w⟩ := e
    rw [pathsOfFields]
    rcases List.mem_cons.1 hk with hk | hk
    · cases hk
      exact List.subset_append_left ..
    · exact List.subset_append_of_subset_right _ (ih hk)

theorem pathsAt_item {path : List Step} {items : List Json} {i : Nat} {v : Json}
    (hi : items[i]? = some v) :
    pathsAt (path ++ [.key (toString i)]) v ⊆ pathsAt path (array items) := by
  have hsub := pathsAt_subset_items path (i := 0) hi
  rw [Nat.zero_add] at hsub
  rw [pathsAt]
  exact List.subset_cons_of_subset path hsub

theorem pathsAt_field {path : List Step} {fields : Fields} {k : String} {v : Json}
    (hk : (k, v) ∈ fields) : pathsAt (path ++ [.key k]) v ⊆ pathsAt path (object fields) := by
  rw [pathsAt]
  exact List.subset_cons_of_subset path (pathsAt_subset_fields hk)

/-- The paths of a document. -/
abbrev paths (doc : Json) : List (List Step) := pathsAt [.root] doc

/-- A value of a document, which may be the document itself. -/
abbrev Part : Json → Json → Prop := Relation.ReflTransGen Child

variable {doc v w : Json} {ks : List String} {outer : Option Reference}

theorem Part.size_le (h : Part doc v) : v.size ≤ doc.size := by
  induction h with
  | refl => exact Nat.le_refl _
  | tail _ h ih => exact Nat.le_trans (Nat.le_of_lt h.size_lt) ih

/-- The paths of an object in a document are among those of the document. -/
theorem At.pathsAt_subset (h : doc.At ks v outer) :
    pathsAt (.root :: ks.map .key) v ⊆ doc.paths := by
  induction h with
  | root => exact List.Subset.refl _
  | item h hi ih =>
    rw [List.map_append, ← List.cons_append]
    exact List.Subset.trans (pathsAt_item hi) ih
  | field h hk ih =>
    rw [List.map_append, ← List.cons_append]
    exact List.Subset.trans (pathsAt_field hk) ih

theorem At.mem_paths {fields : Fields} (h : doc.At ks (object fields) outer) :
    .root :: ks.map .key ∈ doc.paths := by
  refine h.pathsAt_subset ?_
  rw [pathsAt]
  exact List.mem_cons_self

theorem Part.exists_pathsAt_subset (h : Part doc v) : ∃ path, pathsAt path v ⊆ doc.paths := by
  induction h with
  | refl => exact ⟨_, List.Subset.refl _⟩
  | tail _ h ih =>
    obtain ⟨path, hsub⟩ := ih
    cases h with
    | item h =>
      obtain ⟨i, hi⟩ := List.mem_iff_getElem?.1 h
      exact ⟨_, List.Subset.trans (pathsAt_item hi) hsub⟩
    | field h => exact ⟨_, List.Subset.trans (pathsAt_field h) hsub⟩

/-- The path that a text in a document stands for is among those of the document. -/
theorem Part.mem_paths {text : String} (h : Part doc (string text)) :
    (Reference.parse text).path ∈ doc.paths := by
  obtain ⟨path, hsub⟩ := h.exists_pathsAt_subset
  refine hsub ?_
  rw [pathsAt]
  exact List.mem_singleton_self _

/-- What a reference leads to in a document is in it. -/
theorem part_of_lookup {r : Reference} (h : r.lookup doc = .ok v) : Part doc v := by
  refine follow_induction (P := Part doc) .refl ?_ .refl (Reference.follow_of_lookup h)
  intro v w k hv hw
  cases v with
  | array items =>
    obtain ⟨i, -, hi⟩ := Option.bind_eq_some_iff.1 hw
    exact hv.tail (.item (List.mem_of_getElem? hi))
  | object fields => exact hv.tail (.field (mem_of_lookup hw))
  | _ => cases hw

end Json

/-! ## What is known -/

/-- What is served is one of the documents, or comes from the rest. -/
theorem Fetcher.mem_of_serving {documents : List (Address × Json)} {rest : Fetcher} {n : Nat}
    {a : Address} {v : Json} (h : serving documents rest n a = .ok v) :
    (a, v) ∈ documents ∨ rest n a = .ok v := by
  unfold serving at h
  split at h
  · next w hw =>
    cases h
    exact .inl (List.mem_reverse.1 (mem_of_lookup hw))
  · exact .inr h

namespace Resolver

variable {documents : List (Address × Json)} {r r' : Resolver} {l : Location} {v : Json}
  {ref : Reference}

/-- All that is known, and all that can be fetched, is of given documents. -/
structure Known (r : Resolver) (documents : List (Address × Json)) : Prop where
  fetcher : ∀ n a v, r.store.fetcher n a = .ok v → (a, v) ∈ documents
  find? : ∀ a v, r.store.find? a = some v → (a, v) ∈ documents
  places : ∀ e ∈ r.scopes.places, ∃ d ∈ documents, e.2.canonical.path ∈ d.2.paths

theorem known_ofFetcher {fetcher : Fetcher}
    (h : ∀ n a v, fetcher n a = .ok v → (a, v) ∈ documents) :
    (ofFetcher fetcher).Known documents where
  fetcher := h
  find? a v hv := by cases hv
  places e he := absurd he List.not_mem_nil

theorem Known.fetch (h : r.Known documents) (a : Address) :
    Known { r with store := (r.store.get a).2 } documents := by
  cases ha : r.store.find? a with
  | some v =>
    rw [Store.get_of_find ha]
    exact h
  | none =>
    rcases Store.get_of_find_none ha with ⟨e, -, heq⟩ | ⟨v, hfetch, heq⟩
    · rw [heq]
      exact ⟨h.fetcher, h.find?, h.places⟩
    · rw [heq]
      refine ⟨h.fetcher, fun b w hw => ?_, h.places⟩
      replace hw : ((a, v) :: r.store.documents).lookup b = some w := hw
      rw [List.lookup_cons] at hw
      split at hw
      · next heq =>
        obtain rfl := eq_of_beq heq
        cases hw
        exact h.fetcher _ _ _ hfetch
      · exact h.find? b w hw

theorem Known.crawl {a : Address} (h : r.Known documents) (hv : r.store.find? a = some v) :
    Known { r with scopes := (r.scopes.addDocument v a).2 } documents := by
  refine ⟨h.fetcher, h.find?, fun e he => ?_⟩
  have hentries : e ∈ (Scopes.entries (Scopes.rootLocation a) v).entries ∨
      e ∈ r.scopes.places := by
    by_cases ha : r.scopes.isCrawled a = true
    · rw [Scopes.addDocument_of_isCrawled ha] at he
      exact .inr he
    · rcases Scopes.addDocument_of_not_isCrawled (v := v) ha with ⟨e', -, heq⟩ | ⟨-, heq⟩ <;>
        rw [heq] at he <;> simpa using he
  rcases hentries with he | he
  · obtain ⟨ks, fields, outer, hat, hplace, -⟩ := Scopes.at_of_mem_entries he
    rw [hplace]
    exact ⟨(a, v), h.find? a v hv, hat.mem_paths⟩
  · exact h.places e he

/-- **Every move keeps to the documents**: what is crawled is one of them. -/
theorem Known.move (h : r.Known documents) (hmove : r.Move r') : r'.Known documents := by
  cases hmove with
  | fetch a => exact h.fetch a
  | crawl hv => exact h.crawl hv

theorem Known.later (h : r.Known documents) (hr : r.Later r') : r'.Known documents := by
  induction hr with
  | refl => exact h
  | tail _ hmove ih => exact ih.move hmove

end Resolver

/-! ## Where references lead -/

section

variable {documents : List (Address × Json)} {topLevels : List (String × Reference)}
  {r : Reference}

/-- The number of values in documents. -/
def valueCount : List (Address × Json) → Nat
  | [] => 0
  | d :: rest => d.2.size + valueCount rest

theorem valueCount_append (documents served : List (Address × Json)) :
    valueCount (documents ++ served) = valueCount documents + valueCount served := by
  induction documents with
  | nil => exact (Nat.zero_add _).symm
  | cons d documents ih => rw [List.cons_append, valueCount, valueCount, ih, Nat.add_assoc]

theorem size_le_valueCount {d : Address × Json} (hd : d ∈ documents) :
    d.2.size ≤ valueCount documents := by
  obtain ⟨before, after, rfl⟩ := List.append_of_mem hd
  rw [valueCount_append, valueCount]
  omega

theorem length_le_valueCount : ∀ documents, documents.length ≤ valueCount documents
  | [] => Nat.le_refl _
  | d :: documents => by
    have hd := d.2.size_pos
    have hrest := length_le_valueCount documents
    rw [List.length_cons, valueCount]
    omega

/-- The paths that stand in documents or in the references of top levels. -/
def targetPaths (documents : List (Address × Json)) (topLevels : List (String × Reference)) :
    List (List Step) :=
  topLevels.map (·.2.path) ++ documents.flatMap (·.2.paths)

/-- Where references may lead: into one of the documents, by one of these paths. -/
def targets (documents : List (Address × Json)) (topLevels : List (String × Reference)) :
    List Reference :=
  documents.flatMap fun d => (targetPaths documents topLevels).map fun path => ⟨some d.1, path⟩

theorem mem_targets {d : Address × Json} (hd : d ∈ documents) (ha : r.address = some d.1)
    (hp : r.path ∈ targetPaths documents topLevels) : r ∈ targets documents topLevels := by
  refine List.mem_flatMap.2 ⟨d, hd, List.mem_map.2 ⟨r.path, hp, ?_⟩⟩
  rw [← ha]

theorem length_paths (documents : List (Address × Json)) :
    (documents.flatMap (·.2.paths)).length = valueCount documents := by
  induction documents with
  | nil => rfl
  | cons d documents ih =>
    rw [List.flatMap_cons, List.length_append, ih, Json.length_pathsAt, valueCount]

theorem length_targetPaths : (targetPaths documents topLevels).length =
    topLevels.length + valueCount documents := by
  rw [targetPaths, List.length_append, List.length_map, length_paths]

theorem length_targets_le : (targets documents topLevels).length ≤
    valueCount documents * (topLevels.length + valueCount documents) := by
  rw [targets, List.length_flatMap]
  simp only [List.length_map, length_targetPaths, List.map_const', List.sum_replicate_nat]
  exact Nat.mul_le_mul_right _ (length_le_valueCount documents)

end

/-! ## Conversion -/

namespace Conversion

variable {producers : List Producer} {documents : List (Address × Json)}
  {topLevels : List (String × Reference)} {st st' : Conversion} {l : Location} {v : Json}
  {place : Reference}

/-- The targets that have no type. -/
def waiting (targets : List Reference) (st : Conversion) : Finset Reference :=
  targets.toFinset.filter fun r => st.types.get? r = none

theorem mem_waiting {targets : List Reference} :
    place ∈ waiting targets st ↔ place ∈ targets ∧ st.types.get? place = none := by
  rw [waiting, Finset.mem_filter, List.mem_toFinset]

theorem waiting_subset (targets : List Reference) (h : st.Later st') :
    waiting targets st' ⊆ waiting targets st := by
  intro p hp
  obtain ⟨hmem, hnone⟩ := mem_waiting.1 hp
  refine mem_waiting.2 ⟨hmem, ?_⟩
  cases hget : st.types.get? p with
  | none => rfl
  | some r =>
    rw [Later.get?_types h hget] at hnone
    cases hnone

theorem later_pended {a : Attributes} (hnone : st.types.get? place = none)
    (h : (st.pended place a).Later st') : st.Later st' :=
  .head (.begin a hnone) h

/-- A target that is entered waits no more. -/
theorem card_waiting_lt {targets : List Reference} {a : Attributes} (hmem : place ∈ targets)
    (hnone : st.types.get? place = none) (h : (st.pended place a).Later st') :
    (waiting targets st').card < (waiting targets st).card := by
  have hsub := waiting_subset targets (later_pended hnone h)
  refine Finset.card_lt_card (Finset.ssubset_iff_subset_ne.2 ⟨hsub, ?_⟩)
  intro heq
  have hwaits : place ∈ waiting targets st' := heq ▸ mem_waiting.2 ⟨hmem, hnone⟩
  have hget : (st.pended place a).types.get? place = some st.builder.graph.size :=
    (OrderedMap.get?_insert ..).trans (if_pos rfl)
  have hnone' := (mem_waiting.1 hwaits).2
  rw [Later.get?_types h hget] at hnone'
  cases hnone'

/-- What the targets that wait may cost: to go there, and to go down in a document. -/
def debt (documents : List (Address × Json)) (topLevels : List (String × Reference))
    (st : Conversion) : Nat :=
  (waiting (targets documents topLevels) st).card * (valueCount documents + 1)

/-- A depth allows for a schema: for going down in it or, at a target, in all of a document. -/
def Affords (documents : List (Address × Json)) (topLevels : List (String × Reference))
    (depth : Nat) (v : Json) (l : Location) (st : Conversion) : Prop :=
  v.size + debt documents topLevels st ≤ depth ∨
    l.canonical ∈ targets documents topLevels ∧ debt documents topLevels st < depth

theorem debt_le (documents : List (Address × Json)) (topLevels : List (String × Reference))
    (h : st.Later st') : debt documents topLevels st' ≤ debt documents topLevels st :=
  Nat.mul_le_mul_right _ (Finset.card_le_card (waiting_subset _ h))

/-- Entering a target pays for going down in a document. -/
theorem debt_lt {a : Attributes} (hmem : place ∈ targets documents topLevels)
    (hnone : st.types.get? place = none) (h : (st.pended place a).Later st') :
    valueCount documents + debt documents topLevels st' < debt documents topLevels st := by
  have hcard := card_waiting_lt hmem hnone h
  calc valueCount documents + debt documents topLevels st'
      < (valueCount documents + 1) + debt documents topLevels st' := by omega
    _ = ((waiting (targets documents topLevels) st').card + 1) * (valueCount documents + 1) := by
        rw [debt, Nat.add_mul, Nat.one_mul, Nat.add_comm]
    _ ≤ debt documents topLevels st := Nat.mul_le_mul_right _ hcard

/-- The schema once it is entered, whether it is at a target or not. -/
theorem Affords.pended {depth : Nat} {a : Attributes}
    (h : Affords documents topLevels depth v l st) (hv : ∃ d ∈ documents, Json.Part d.2 v)
    (hnone : st.types.get? l.canonical = none) (hst : (st.pended l.canonical a).Later st') :
    v.size + debt documents topLevels st' ≤ depth := by
  obtain ⟨d, hd, hv⟩ := hv
  have hle := debt_le documents topLevels (later_pended hnone hst)
  rcases h with h | ⟨hmem, h⟩
  · omega
  · have hlt := debt_lt hmem hnone hst
    have hsize := Nat.le_trans hv.size_le (size_le_valueCount hd)
    omega

/-- What is found is in a document, and its location is a target. -/
theorem exists_part_of_finds {r : Resolver} {ref : Reference} (hr : r.Known documents)
    (h : r.Finds ref l v) (hp : ref.path ∈ targetPaths documents topLevels) :
    (∃ d ∈ documents, Json.Part d.2 v) ∧ l.canonical ∈ targets documents topLevels := by
  obtain ⟨a, doc, ha, hdoc, -, hlookup⟩ := h.shows
  have hmem := hr.find? a doc hdoc
  refine ⟨⟨_, hmem, Json.part_of_lookup hlookup⟩, mem_targets hmem ha ?_⟩
  rcases h.path_cases with hpath | ⟨e, he, hpath⟩
  · rw [hpath]
    exact hp
  · rw [hpath]
    obtain ⟨d, hd, hmem⟩ := hr.places e he
    exact List.mem_append_right _ (List.mem_flatMap.2 ⟨d, hd, hmem⟩)

/-- **A depth that allows for a schema is never used up**, and a higher one does the same. -/
theorem alike_typeOf {depth depth' : Nat} {a : Attributes} (hr : st.resolver.Known documents)
    (hv : ∃ d ∈ documents, Json.Part d.2 v) (h : Affords documents topLevels depth v l st)
    (hle : depth ≤ depth') :
    Alike (·.Ordinary) (typeOf producers depth v l a) (typeOf producers depth' v l a) st := by
  induction depth generalizing depth' v l a st with
  | zero =>
    have hpos := v.size_pos
    rcases h with h | ⟨-, h⟩ <;> omega
  | succ depth ih =>
    obtain ⟨depth', rfl⟩ := Nat.exists_eq_add_of_le' (Nat.le_trans (Nat.succ_pos depth) hle)
    replace hle := Nat.le_of_succ_le_succ hle
    refine (agrees_typeOf (fun _ => id) ?_).mono fun _ _ _ _ => trivial
    rintro hnone s rfl attributes
    have hknown : ∀ st', (st.pended l.canonical attributes).Later st' →
        st'.resolver.Known documents := fun st' hst =>
      hr.later (Later.resolver (later_pended hnone hst))
    obtain ⟨d, hd, hs⟩ := hv
    refine ⟨fun w hw st' hst l' a' => ?_, fun st' hst text htext w l' hfinds a' => ?_⟩
    · -- what lies in the schema is smaller
      have hsize := hw.size_lt
      have hpended := h.pended ⟨d, hd, hs⟩ hnone hst
      refine ih (hknown st' hst) ⟨d, hd, hs.trans hw.to_reflTransGen⟩ (.inl ?_) hle
      omega
    · -- a schema with a reference has a value besides, which pays for going to the target
      have hbelow := Schema.below_of_get? htext
      have hsize : 1 < (Json.object s).size := hbelow.size_lt
      have hpended := h.pended ⟨d, hd, hs⟩ hnone hst
      have hpath : (Reference.parse text).path ∈ targetPaths documents topLevels := by
        have hpart : Json.Part d.2 (.string text) := hs.trans hbelow.to_reflTransGen
        exact List.mem_append_right _ (List.mem_flatMap.2 ⟨d, hd, hpart.mem_paths⟩)
      obtain ⟨hw, hmem⟩ := exists_part_of_finds (hknown st' hst) hfinds hpath
      refine ih (hknown st' hst) hw (.inr ⟨hmem, ?_⟩) hle
      omega

theorem debt_lt_depthFor : debt documents topLevels st <
    depthFor (valueCount documents) topLevels.length := by
  have hcard : (waiting (targets documents topLevels) st).card ≤
      valueCount documents * (topLevels.length + valueCount documents) :=
    calc (waiting (targets documents topLevels) st).card
        ≤ (targets documents topLevels).toFinset.card := Finset.card_filter_le ..
      _ ≤ (targets documents topLevels).length := List.toFinset_card_le _
      _ ≤ _ := length_targets_le
  unfold debt depthFor
  dsimp only
  generalize (waiting (targets documents topLevels) st).card = waits at hcard ⊢
  generalize valueCount documents = n at hcard ⊢
  generalize topLevels.length = m at hcard ⊢
  have hlt : waits < (n + m + 1) * (n + m + 1) :=
    calc waits ≤ n * (m + n) := hcard
      _ ≤ (n + m + 1) * (m + n) := Nat.mul_le_mul_right _ (by omega)
      _ < (n + m + 1) * (n + m + 1) := Nat.mul_lt_mul_of_pos_left (by omega) (by omega)
  calc waits * (n + 1) ≤ waits * (n + m + 1) := Nat.mul_le_mul_left _ (by omega)
    _ < (n + m + 1) * (n + m + 1) * (n + m + 1) := Nat.mul_lt_mul_of_pos_right hlt (by omega)

/-- **So does the conversion of top levels**, from the depth that allows for all targets. -/
theorem alike_addTopLevels_of_le (producers : List Producer) {depth depth' : Nat}
    (hr : st.resolver.Known documents)
    (hdepth : depthFor (valueCount documents) topLevels.length ≤ depth) (hle : depth ≤ depth') :
    Alike (·.Ordinary) (addTopLevels producers depth topLevels)
      (addTopLevels producers depth' topLevels) st := by
  refine alike_addTopLevels (fun _ => id) fun e he st' hst v l hfinds a => ?_
  have hr' := hr.later (Later.resolver hst)
  have hpath : e.2.path ∈ targetPaths documents topLevels :=
    List.mem_append_left _ (List.mem_map_of_mem he)
  obtain ⟨hv, hmem⟩ := exists_part_of_finds hr' hfinds hpath
  exact alike_typeOf hr' hv (.inr ⟨hmem, Nat.lt_of_lt_of_le debt_lt_depthFor hdepth⟩) hle

/-- **Conversion comes to an end**, whatever the documents refer to, in each other or in themselves:
    if a fetcher serves finitely many documents, then there is a bound for the depth that no
    conversion of top levels reaches, and which makes no difference to what it leads to. -/
theorem conversion_terminates {fetcher : Fetcher}
    (hfetch : ∀ n a v, fetcher n a = .ok v → (a, v) ∈ documents)
    (hst : (Resolver.ofFetcher fetcher).Later st.resolver) (producers : List Producer)
    (topLevels : List (String × Reference)) {depth : Nat}
    (hdepth : depthFor (valueCount documents) topLevels.length ≤ depth) :
    (∀ place, ((addTopLevels producers depth topLevels).run st).1 ≠ .error (.tooDeep place)) ∧
      (addTopLevels producers depth topLevels).run st =
        (addTopLevels producers (depthFor (valueCount documents) topLevels.length)
          topLevels).run st := by
  have hr : st.resolver.Known documents := (Resolver.known_ofFetcher hfetch).later hst
  have halike := alike_addTopLevels_of_le producers hr (Nat.le_refl _) hdepth
  refine ⟨fun place hrun => ?_, halike.run_eq⟩
  rw [halike.run_eq] at hrun
  exact halike.failsOnly _ _ (Prod.ext hrun rfl) place rfl

/-- Two documents that refer to each other, the second to itself besides. -/
def pingPong : List (Address × Json) :=
  [(.relative "ping.json", .object [("$ref", .string "pong.json")]),
    (.relative "pong.json", .object [("$id", .string "x:/pong"), ("allOf", .array
      [.object [("$ref", .string "ping.json")], .object [("$ref", .string "pong")]])])]

/-- The first of the documents, as a top level. -/
def pingPongTop : List (String × Reference) := [("Ping", ⟨some (.relative "ping.json"), [.root]⟩)]

/-- Nothing is converted yet. -/
def pingPongStart : Conversion := ⟨.ofFetcher (.serving pingPong .nothing), .new, ∅⟩

/-- Going through three schemas is not enough for them, but there is a depth that is. -/
theorem conversion_terminates_pingPong :
    ((addTopLevels [] 3 pingPongTop).run pingPongStart).1.isOk = false ∧
    ((addTopLevels [] 2000 pingPongTop).run pingPongStart).1.isOk = true ∧
    (∀ place, ((addTopLevels [] 2000 pingPongTop).run pingPongStart).1 ≠
      .error (.tooDeep place)) ∧
    (addTopLevels [] 2000 pingPongTop).run pingPongStart =
      (addTopLevels [] (depthFor (valueCount pingPong) 1) pingPongTop).run pingPongStart := by
  refine ⟨by decide +kernel, by decide +kernel, ?_⟩
  refine conversion_terminates (fun n a v hv => ?_) .refl [] pingPongTop (by decide +kernel)
  exact (Fetcher.mem_of_serving hv).resolve_right fun h => by cases h

end Conversion

end SchemaTypes

/-
  Top levels of registered schemas.

  Sources and top levels are registered in turn.  A run derives named references from the sources,
  enters them after the registered ones, and makes a top level of each name.  A name that is entered
  again gets another reference, and the one before is lost.

  * `OrderedMap.get?_insertAll`: of the values that are entered at a key, the last one counts;
  * `registerAll?_spec`: what registration leads to;
  * `Aside`: a step of gathering that has nothing to do with top levels, such as deriving
    references (`aside_derive`), so that `derived` is what a run derives, by itself;
  * `ensures_addTopLevels_entries`: each name gets a top level, the type of its reference;
  * `isTarget_iff`: a reference is the target of a top level exactly if a name is left to it.
-/
import SchemaTypes.Proofs.Building
import SchemaTypes.Proofs.Gathering
import SchemaTypes.Proofs.Keys

namespace SchemaTypes

/-! ## Entered values -/

theorem exists_of_forall₂ {α β : Type} {R : α → β → Prop} {l : List α} {l' : List β}
    (h : List.Forall₂ R l l') {a : α} (ha : a ∈ l) : ∃ b ∈ l', R a b := by
  induction h with
  | nil => cases ha
  | @cons c b _ _ hcb _ ih =>
    rcases List.mem_cons.1 ha with rfl | ha
    · exact ⟨b, List.mem_cons_self, hcb⟩
    · obtain ⟨b', hb', hab'⟩ := ih ha
      exact ⟨b', List.mem_cons_of_mem b hb', hab'⟩

namespace OrderedMap

variable {κ ν : Type} [DecidableEq κ]

/-- The map with the entries of a list entered in turn. -/
def insertAll (m : OrderedMap κ ν) (l : List (κ × ν)) : OrderedMap κ ν :=
  l.foldl (fun m e => m.insert e.1 e.2) m

theorem insertAll_append (m : OrderedMap κ ν) (l l' : List (κ × ν)) :
    m.insertAll (l ++ l') = (m.insertAll l).insertAll l' :=
  List.foldl_append

/-- **The last value that is entered at a key counts.** -/
theorem get?_insertAll (m : OrderedMap κ ν) (l : List (κ × ν)) (k : κ) :
    (m.insertAll l).get? k = (l.reverse.lookup k).or (m.get? k) := by
  induction l generalizing m with
  | nil => rfl
  | cons e l ih =>
    have hlast : [e].lookup k = if k = e.1 then some e.2 else none := by
      rw [List.lookup_cons, List.lookup_nil]
      by_cases h : k = e.1
      · rw [if_pos h, beq_iff_eq.2 h]
      · rw [if_neg h, beq_false_of_ne h]
    show ((m.insert e.1 e.2).insertAll l).get? k = _
    rw [ih, get?_insert, List.reverse_cons, List.lookup_append, hlast, Option.or_assoc]
    split <;> rfl

theorem mem_keys_insertAll {m : OrderedMap κ ν} {l : List (κ × ν)} {k : κ} :
    k ∈ (m.insertAll l).keys ↔ k ∈ m.keys ∨ k ∈ l.map Prod.fst := by
  induction l generalizing m with
  | nil => exact (or_iff_left List.not_mem_nil).symm
  | cons e l ih =>
    show k ∈ ((m.insert e.1 e.2).insertAll l).keys ↔ _
    rw [ih, mem_keys_insert, List.map_cons, List.mem_cons, or_assoc, or_left_comm]

end OrderedMap

/-! ## Registration -/

/-- What is registered: a source, or a reference as a top level. -/
inductive Registration where
  | source (s : Source)
  | topLevel (name : String) (r : Reference)

namespace Registration

/-- The URIs of a source. -/
def uris : Registration → List (SourceUri × Source)
  | source s => s.sourceUris.map (·, s)
  | topLevel _ _ => []

/-- The reference of a top level. -/
def reference? : Registration → Option (String × Reference)
  | source _ => none
  | topLevel name r => some (name, r)

end Registration

namespace SchemaInput

variable {i i' : SchemaInput}

/-- Registers a source, if it is accepted, or a top level. -/
def register? (i : SchemaInput) : Registration → Option SchemaInput
  | .source s =>
    match i.addSource s with
    | (.ok _, i) => some i
    | (.error _, _) => none
  | .topLevel name r => some (i.addTopLevel name r)

/-- Registers one after the other. -/
def registerAll? (i : SchemaInput) (rs : List Registration) : Option SchemaInput :=
  rs.foldlM register? i

/-- The same fragment of a source, perhaps of a document that is kept at another address. -/
def SameFragment (e e' : SourceUri × Source) : Prop := e'.2 = e.2 ∧ e'.1.fragment = e.1.fragment

theorem sameFragment_keep (s : Source) (v : Json) (us : List SourceUri)
    (documents : OrderedMap Address Json) :
    List.Forall₂ SameFragment (us.map (·, s)) ((keep v us documents).1.map (·, s)) := by
  induction us generalizing documents with
  | nil => exact .nil
  | cons u us ih => exact .cons ⟨rfl, rfl⟩ (ih _)

/-- What an accepted registration adds. -/
theorem register?_spec {r : Registration} (h : i.register? r = some i') :
    i'.topLevels = i.topLevels.insertAll r.reference?.toList ∧
      ∃ es, i'.sources = i.sources ++ es ∧ List.Forall₂ SameFragment r.uris es := by
  cases r with
  | topLevel name r =>
    cases h
    exact ⟨rfl, [], (List.append_nil _).symm, .nil⟩
  | source s =>
    simp only [register?, addSource] at h
    cases hd : s.document with
    | none =>
      rw [hd] at h
      cases hu : s.uris.isNone <;> simp only [hu] at h <;> cases h
      exact ⟨rfl, _, rfl, List.forall₂_same.2 fun _ _ => ⟨rfl, rfl⟩⟩
    | some d =>
      rw [hd] at h
      cases hv : readDocument s.name d <;> simp only [hv] at h <;> cases h
      exact ⟨rfl, _, rfl, sameFragment_keep ..⟩

/-- **What accepted registrations add**: top levels in turn, and all URIs of all sources. -/
theorem registerAll?_spec {rs : List Registration} (h : i.registerAll? rs = some i') :
    i'.topLevels = i.topLevels.insertAll (rs.filterMap Registration.reference?) ∧
      ∃ es, i'.sources = i.sources ++ es ∧
        List.Forall₂ SameFragment (rs.flatMap Registration.uris) es := by
  induction rs generalizing i with
  | nil =>
    cases h
    exact ⟨rfl, [], (List.append_nil _).symm, .nil⟩
  | cons r rs ih =>
    obtain ⟨i₁, h₁, h⟩ := Option.bind_eq_some_iff.1 h
    obtain ⟨htop₁, es₁, hes₁, huris₁⟩ := register?_spec h₁
    obtain ⟨htop, es, hes, huris⟩ := ih h
    refine ⟨?_, es₁ ++ es, ?_, List.rel_append huris₁ huris⟩
    · rw [htop, htop₁, ← OrderedMap.insertAll_append]
      cases hr : r.reference? <;> simp [hr]
    · rw [hes, hes₁, List.append_assoc]

/-! ## Gathering -/

section

variable {α β : Type}

/-- A step of gathering that leaves top levels alone and does not look at them. -/
def Aside (m : GatheringM α) : Prop :=
  ∀ (g : Gathering) (topLevels : OrderedMap String Reference),
    m.run { g with topLevels } = ((m.run g).1, { (m.run g).2 with topLevels })

namespace Aside

theorem topLevels_eq {m : GatheringM α} (hm : Aside m) {g g' : Gathering} {x : Except SourceError α}
    (h : m.run g = (x, g')) : g'.topLevels = g.topLevels := by
  have haside := hm g g.topLevels
  rw [h] at haside
  exact congrArg (·.2.topLevels) haside

theorem pure (a : α) : Aside (pure a) := fun _ _ => rfl

theorem throw (e : SourceError) : Aside (throw e : GatheringM α) := fun _ _ => rfl

theorem lift (x : Except SourceError α) : Aside (liftM x) := fun _ _ => by cases x <;> rfl

theorem resolving (m : ResolverM α) : Aside (resolving m) := fun _ _ => rfl

theorem bind {m : GatheringM α} {f : α → GatheringM β} (hm : Aside m) (hf : ∀ a, Aside (f a)) :
    Aside (m >>= f) := by
  intro g topLevels
  rw [run_bind, run_bind, hm g topLevels]
  obtain ⟨_ | a, g₁⟩ := m.run g
  · rfl
  · exact hf a g₁ topLevels

theorem forM {f : α → GatheringM PUnit} (hf : ∀ a, Aside (f a)) (l : List α) :
    Aside (l.forM f) := by
  induction l with
  | nil => exact .pure _
  | cons a l ih => exact (hf a).bind fun _ => ih

theorem mapM {f : α → GatheringM β} (hf : ∀ a, Aside (f a)) (l : List α) : Aside (l.mapM f) := by
  induction l with
  | nil => exact .pure _
  | cons a l ih =>
    rw [List.mapM_cons]
    exact (hf a).bind fun _ => ih.bind fun _ => .pure _

end Aside

end

theorem aside_crawlAdditional (a : Address) : Aside (crawlAdditional a) := by
  refine (Aside.resolving _).bind fun v => ?_
  cases v with
  | none => exact .throw _
  | some v => exact (Aside.resolving _).bind fun _ => .pure _

theorem aside_namedReferences (only : Bool) (u : SourceUri) (s : Source) :
    Aside (namedReferences only u s) := by
  unfold namedReferences
  obtain ⟨r, ofFields⟩ := referenceOf u
  refine (Aside.resolving _).bind fun x => ?_
  dsimp only
  split
  · split
    · exact .pure _
    · exact .throw _
  · exact (Aside.lift _).bind fun _ => .pure _

/-- The named references of sources. -/
def derive (only : Bool) (sources : List (SourceUri × Source)) :
    GatheringM (List (List (String × Reference))) :=
  sources.mapM fun e => namedReferences only e.1 e.2

theorem aside_derive (only : Bool) (sources : List (SourceUri × Source)) :
    Aside (derive only sources) := by
  unfold derive
  refine Aside.mapM (fun e => ?_) sources
  exact aside_namedReferences only e.1 e.2

/-- What a URI stands for: what it leads to, or each property of that. -/
def DerivedFrom (e : SourceUri × Source) (references : List (String × Reference)) : Prop :=
  if (referenceOf e.1).2 then
    ∃ names : List String,
      references = names.map fun name => (name, (referenceOf e.1).1.push [name])
  else ∃ name, references = [(name, (referenceOf e.1).1)]

theorem ensures_namedReferences (only : Bool) (u : SourceUri) (s : Source) (g : Gathering) :
    Ensures (namedReferences only u s) g fun references _ => DerivedFrom (u, s) references := by
  unfold namedReferences DerivedFrom
  obtain ⟨r, ofFields⟩ := referenceOf u
  refine Ensures.bind fun x g₁ _ => ?_
  dsimp only
  split
  · split
    · next fields _ => exact ensures_pure ⟨fields.map Prod.fst, by simp⟩
    · exact ensures_throw
  · exact Ensures.bind (ensures_lift fun name _ => ensures_pure ⟨_, rfl⟩)

/-- **Each URI of each source is accounted for**, in turn. -/
theorem ensures_derive (only : Bool) (sources : List (SourceUri × Source)) (g : Gathering) :
    Ensures (derive only sources) g fun derived _ => List.Forall₂ DerivedFrom sources derived := by
  unfold derive
  induction sources generalizing g with
  | nil => exact ensures_pure .nil
  | cons e rest ih =>
    rw [List.mapM_cons]
    refine (ensures_namedReferences only e.1 e.2 g).seq fun references g₁ he => ?_
    exact (ih g₁).seq fun derived _ hrest => ensures_pure (.cons he hrest)

/-- References are entered in turn. -/
theorem run_enterAll (references : List (String × Reference)) (g : Gathering) :
    (forIn references PUnit.unit fun e _ => do
        modify fun g : Gathering => { g with topLevels := g.topLevels.insert e.1 e.2 }
        return ForInStep.yield PUnit.unit : GatheringM PUnit).run g =
      (.ok ⟨⟩, { g with topLevels := g.topLevels.insertAll references }) := by
  induction references generalizing g with
  | nil => rfl
  | cons e references ih =>
    rw [List.forIn_cons, bind_assoc, run_bind]
    exact ih _

/-- **What is derived from the sources is entered in turn.** -/
theorem ensures_gather (only : Bool) (sources : List (SourceUri × Source)) (g : Gathering) :
    Ensures (gather only sources) g fun _ g' => ∃ derived,
      (derive only sources).run g = (.ok derived, { g' with topLevels := g.topLevels }) ∧
        g'.topLevels = g.topLevels.insertAll derived.flatten := by
  induction sources generalizing g with
  | nil => exact ensures_pure ⟨[], rfl, rfl⟩
  | cons e rest ih =>
    obtain ⟨u, s⟩ := e
    unfold gather
    refine Ensures.bind fun references g₁ hnamed => ?_
    have htop := (aside_namedReferences only u s).topLevels_eq hnamed
    refine Ensures.bind fun _ g₂ henter => ?_
    cases (run_enterAll references g₁).symm.trans henter
    refine (ih _).mono fun _ g' => ?_
    rintro ⟨derived, hderive, htop'⟩
    refine ⟨references :: derived, ?_, ?_⟩
    · -- the references of the rest are the same before those of the first are entered
      have hrest : (derive only rest).run g₁ =
          (.ok derived, { g' with topLevels := g₁.topLevels }) := by
        have haside := aside_derive only rest
          { g₁ with topLevels := g₁.topLevels.insertAll references } g₁.topLevels
        rwa [hderive] at haside
      unfold derive at hrest ⊢
      rw [List.mapM_cons, run_bind, hnamed]
      dsimp only
      rw [run_bind, hrest, htop]
      rfl
    · rw [htop', htop, List.flatten_cons, OrderedMap.insertAll_append]

/-- What a run starts with. -/
def start (i : SchemaInput) : Gathering :=
  ⟨.ofFetcher (.serving i.documents.entries i.fetcher), i.topLevels⟩

/-- The named references of all sources, as a run derives them. -/
def derived (i : SchemaInput) : Except SourceError (List (List (String × Reference))) :=
  ((do
    i.additional.forM crawlAdditional
    derive (i.sources.length == 1) i.sources : GatheringM _).run i.start).1

theorem ensures_gatherAll (i : SchemaInput) :
    Ensures i.gatherAll i.start fun _ g => ∃ derived, i.derived = .ok derived ∧
      List.Forall₂ DerivedFrom i.sources derived ∧
        g.topLevels = i.topLevels.insertAll derived.flatten := by
  unfold gatherAll
  refine Ensures.bind fun _ g₁ hcrawl => ?_
  have htop := (Aside.forM aside_crawlAdditional i.additional).topLevels_eq hcrawl
  refine (ensures_gather _ _ g₁).mono fun _ g => ?_
  rintro ⟨derived, hderive, hentered⟩
  refine ⟨derived, ?_, ensures_derive _ _ g₁ _ _ hderive, ?_⟩
  · rw [SchemaInput.derived, run_bind, hcrawl]
    exact congrArg Prod.fst hderive
  · rw [hentered, htop]
    rfl

end SchemaInput

/-! ## Conversion -/

namespace Conversion

variable {producers : List Producer} {st st' st₁ st₂ : Conversion} {r : Reference} {t : NodeId}

/-- Between two states of a conversion a reference was resolved, to a schema that is converted to
    the type. -/
def Led (st st' : Conversion) (r : Reference) (t : NodeId) : Prop :=
  ∃ s v l resolver, st.Later s ∧
    (Resolver.resolveTopLevel r).run s.resolver = (.ok (v, l), resolver) ∧
    Later { s with resolver } st' ∧ st'.types.get? l.canonical = some t

theorem Led.after (h : st.Later st₁) : Led st₁ st' r t → Led st st' r t := by
  rintro ⟨s, v, l, resolver, hs, hrest⟩
  exact ⟨s, v, l, resolver, h.trans hs, hrest⟩

/-- Operations on types leave the top levels alone. -/
theorem stable_topLevels (topLevels : OrderedMap String NodeId) :
    Builder.Stable (·.graph.topLevels = topLevels) where
  add _ h := h
  share _ h := h
  object _ _ _ h := h
  setMembers _ _ h := by
    unfold Builder.setMembers
    split <;> exact h
  addAttributes _ _ h := by
    unfold Builder.addAttributes Graph.addAttributes
    dsimp only
    split <;> exact h

theorem entries_addTopLevel {b : Builder} {name : String}
    (h : name ∉ b.graph.topLevels.keys) (t : NodeId) :
    (b.addTopLevel name t).2.graph.topLevels.entries =
      b.graph.topLevels.entries ++ [(name, t)] := by
  have hnot : ¬b.graph.topLevels.contains name = true := fun hc => by
    obtain ⟨x, hx⟩ := Option.isSome_iff_exists.1 hc
    exact h (OrderedMap.mem_keys_iff.2 ⟨x, hx⟩)
  unfold Builder.addTopLevel Graph.addTopLevel
  rw [if_neg hnot]
  exact OrderedMap.entries_insert_of_notMem h t

theorem later_of_resolving {x : Json × Location}
    (h : (resolving (Resolver.resolveTopLevel r)).run st = (.ok x, st₁)) : st.Later st₁ :=
  (passes_resolving (Resolver.passes_resolveTopLevel (fun _ => id) r)).reaches_of_run h

theorem led_of_typeOf {v : Json} {l : Location} {depth : Nat} {a : Attributes}
    (h₁ : (resolving (Resolver.resolveTopLevel r)).run st = (.ok (v, l), st₁))
    (h₂ : (typeOf producers depth v l a).run st₁ = (.ok t, st₂)) (h : st₂.Later st') :
    Led st st' r t := by
  obtain ⟨hv, rfl⟩ := Prod.ext_iff.1 h₁
  refine ⟨st, v, l, _, .refl, Prod.ext hv rfl, ?_, ?_⟩
  · exact ((passes_typeOf depth v l a).reaches_of_run h₂).trans h
  · exact Later.get?_types h ((passes_typeOf depth v l a).ensures t st₂ h₂)

theorem ensures_enterTopLevel {name : String} (h : name ∉ st.builder.graph.topLevels.keys)
    (t : NodeId) : Ensures (discard <| build (·.addTopLevel name t)) st fun _ st' =>
      st.Later st' ∧ st'.builder.graph.topLevels.entries =
        st.builder.graph.topLevels.entries ++ [(name, t)] :=
  .discard (ensures_modifyGet
    ⟨.single (.build (Builder.develops_addTopLevel name t)), entries_addTopLevel h t⟩)

/-- **Each of several names gets a top level**, the type of its reference. -/
theorem ensures_addTopLevels_entries (depth : Nat) {references : List (String × Reference)}
    (hnodup : (references.map Prod.fst).Nodup)
    (hnew : ∀ e ∈ references, e.1 ∉ st.builder.graph.topLevels.keys) :
    Ensures (addTopLevels producers depth references) st fun _ st' => ∃ entries,
      st'.builder.graph.topLevels.entries = st.builder.graph.topLevels.entries ++ entries ∧
        List.Forall₂ (fun e p => p.1 = e.1 ∧ Led st st' e.2 p.2) references entries := by
  induction references generalizing st with
  | nil => exact ensures_pure ⟨[], (List.append_nil _).symm, .nil⟩
  | cons e rest ih =>
    obtain ⟨name, r⟩ := e
    rw [List.map_cons, List.nodup_cons] at hnodup
    unfold addTopLevels
    refine Ensures.bind fun x st₁ h₁ => ?_
    obtain ⟨v, l⟩ := x
    refine Ensures.bind fun t st₂ h₂ => ?_
    have htop : st₂.builder.graph.topLevels = st.builder.graph.topLevels := by
      refine maintains_typeOf (stable_topLevels _) depth v l _ st₁ ?_ t st₂ h₂
      obtain ⟨-, rfl⟩ := Prod.ext_iff.1 h₁
      rfl
    refine (ensures_enterTopLevel (htop ▸ hnew _ List.mem_cons_self) t).seq fun _ st₃ h => ?_
    obtain ⟨hlater₃, hentries⟩ := h
    rw [htop] at hentries
    have hnew₃ : ∀ e ∈ rest, e.1 ∉ st₃.builder.graph.topLevels.keys := fun e he hmem => by
      rw [OrderedMap.keys, hentries, List.map_append, List.mem_append] at hmem
      rcases hmem with hmem | hmem
      · exact hnew e (List.mem_cons_of_mem _ he) hmem
      · rw [List.map_singleton, List.mem_singleton] at hmem
        exact hnodup.1 (hmem ▸ List.mem_map_of_mem he)
    intro _ st' h'
    obtain ⟨entries, heq, hall⟩ := ih hnodup.2 hnew₃ _ _ h'
    have hlater' : st₃.Later st' := (passes_addTopLevels depth rest).reaches_of_run h'
    refine ⟨(name, t) :: entries, ?_, .cons ⟨rfl, led_of_typeOf h₁ h₂ (hlater₃.trans hlater')⟩ ?_⟩
    · rw [heq, hentries, List.append_assoc, List.singleton_append]
    · have hbefore : st.Later st₃ := ((later_of_resolving h₁).trans
        ((passes_typeOf depth v l _).reaches_of_run h₂)).trans hlater₃
      exact hall.imp fun _ _ h => ⟨h.1, h.2.after hbefore⟩

end Conversion

/-! ## Runs -/

namespace SchemaInput

variable {i₀ i : SchemaInput} {b b' : Builder} {g : Gathering} {c : Conversion} {r : Reference}

/-- A run that succeeds: what it gathers, and what it comes to. -/
structure Built (i : SchemaInput) (b : Builder) (g : Gathering) (c : Conversion) : Prop where
  gathered : i.gatherAll.run i.start = (.ok ⟨⟩, g)
  converted : (convertAll { i with topLevels := g.topLevels }).run ⟨g.resolver, b, ∅⟩ = (.ok ⟨⟩, c)

theorem exists_built (hne : i.sources ≠ []) (h : (i.addTypes b).1 = .ok b') :
    ∃ g c, i.Built b g c ∧ c.builder = b' := by
  unfold addTypes at h
  rw [if_neg fun hnil => hne (List.isEmpty_iff.1 hnil)] at h
  dsimp only at h
  split at h
  next gathered g hgathered =>
  cases gathered with
  | error => cases h
  | ok =>
    dsimp only at h
    split at h
    next converted c hconverted =>
    cases converted with
    | error => cases h
    | ok =>
      cases h
      exact ⟨g, c, ⟨hgathered, hconverted⟩, rfl⟩

/-- The reference is the target of a top level: it was entered under a name, and the top level of
    that name is the type of the schema that it was found to lead to. -/
def IsTarget (i : SchemaInput) (b : Builder) (r : Reference) : Prop :=
  ∃ g c name t, i.Built b g c ∧ g.topLevels.get? name = some r ∧
    c.builder.graph.topLevel? name = some t ∧ Conversion.Led ⟨g.resolver, b, ∅⟩ c r t

/-- A run makes top levels of all names, and targets of the references that they are left to. -/
theorem Built.targets (h : i.Built b g c) (hb : b.graph.topLevels = ∅) :
    c.builder.graph.topLevels.keys = g.topLevels.keys ∧
      ∀ r, i.IsTarget b r ↔ ∃ name, g.topLevels.get? name = some r := by
  obtain ⟨entries, heq, hall⟩ := Conversion.ensures_addTopLevels_entries _ g.topLevels.nodup
    (fun e _ he => by
      rw [hb] at he
      cases he) _ _ h.converted
  replace heq : c.builder.graph.topLevels.entries = entries := by
    rw [heq, hb]
    rfl
  refine ⟨?_, fun r => ⟨?_, ?_⟩⟩
  · rw [OrderedMap.keys, heq, OrderedMap.keys, ← List.forall₂_eq_eq_eq, List.forall₂_map_left_iff,
      List.forall₂_map_right_iff]
    exact hall.flip.imp fun _ _ h => h.1
  · rintro ⟨g', c', name, t, h', hget, -⟩
    cases h.gathered.symm.trans h'.gathered
    exact ⟨name, hget⟩
  · rintro ⟨name, hget⟩
    obtain ⟨p, hp, rfl, hled⟩ := exists_of_forall₂ hall (OrderedMap.get?_eq_some_iff.1 hget)
    refine ⟨g, c, p.1, p.2, h, hget, OrderedMap.get?_eq_some_iff.2 ?_, hled⟩
    rw [heq]
    exact hp

/-- Nothing is registered yet. -/
def Blank (i : SchemaInput) : Prop := i.sources = [] ∧ i.topLevels = ∅

/-- **The last reference of a name is what its top level leads to.**  Every URI of every source is
    asked for references, which are entered after those that were registered.  All names become top
    levels; a reference is the target of one exactly if it is the last one that was entered under a
    name.  So nothing is lost where no name comes twice. -/
theorem targets_of_registrations {rs : List Registration} (h₀ : i₀.Blank)
    (hrs : i₀.registerAll? rs = some i) (hb : b.graph.topLevels = ∅)
    (hrun : (i.addTypes b).1 = .ok b') :
    List.Forall₂ SameFragment (rs.flatMap Registration.uris) i.sources ∧
      (i.sources = [] → b' = b) ∧
      (i.sources ≠ [] → ∃ derived, i.derived = .ok derived ∧
        List.Forall₂ DerivedFrom i.sources derived ∧
        let entered := rs.filterMap Registration.reference? ++ derived.flatten
        (∀ name, name ∈ b'.graph.topLevels.keys ↔ name ∈ entered.map Prod.fst) ∧
        (∀ r, i.IsTarget b r ↔ ∃ name, entered.reverse.lookup name = some r) ∧
        ((entered.map Prod.fst).Nodup → ∀ e ∈ entered, i.IsTarget b e.2)) := by
  obtain ⟨htop, es, hes, huris⟩ := registerAll?_spec hrs
  rw [h₀.1, List.nil_append] at hes
  rw [h₀.2] at htop
  refine ⟨hes ▸ huris, fun hnil => ?_, fun hne => ?_⟩
  · unfold addTypes at hrun
    rw [if_pos (by rw [hnil]; rfl)] at hrun
    cases hrun
    rfl
  · obtain ⟨g, c, hbuilt, rfl⟩ := exists_built hne hrun
    obtain ⟨derived, hderived, hall, hentered⟩ := ensures_gatherAll i _ _ hbuilt.gathered
    rw [htop, ← OrderedMap.insertAll_append] at hentered
    refine ⟨derived, hderived, hall, ?_⟩
    intro entered
    obtain ⟨hkeys, htargets⟩ := hbuilt.targets hb
    have hget : ∀ name, g.topLevels.get? name = entered.reverse.lookup name := fun name => by
      rw [hentered, OrderedMap.get?_insertAll]
      exact Option.or_none
    simp only [hget] at htargets
    refine ⟨fun name => ?_, htargets, fun hnodup e he => (htargets e.2).2 ⟨e.1, ?_⟩⟩
    · rw [hkeys, hentered, OrderedMap.mem_keys_insertAll]
      exact or_iff_right List.not_mem_nil
    · have hnodup' : (entered.reverse.map Prod.fst).Nodup := by
        rwa [List.map_reverse, List.nodup_reverse]
      exact (OrderedMap.get?_eq_some_iff (m := ⟨entered.reverse, hnodup'⟩)).2
        (List.mem_reverse.2 he)

/-! ## Two stalls -/

/-- A stall of the definitions of a document, of which there is one: what it calls an item. -/
def stall (name type : String) : Source where
  name
  uris := some [name ++ ".json#/definitions/"]
  document := some (.value (.object
    [("definitions", .object [("Item", .object [("type", .string type)])])]))
  converted := false

/-- What a stall calls an item. -/
def itemOf (name : String) : Reference :=
  ⟨some (.relative (name ++ ".json")), [.root, .key "definitions", .key "Item"]⟩

/-- Two stalls, and a sign that shows an item of the second one. -/
def stalls : List Registration :=
  [.source (stall "shop" "string"), .topLevel "Sign" (itemOf "bank"),
    .source (stall "bank" "integer")]

/-- The stalls, registered. -/
def market : SchemaInput := ((ofDocuments []).registerAll? stalls).get (by decide +kernel)

theorem registerAll?_stalls : (ofDocuments []).registerAll? stalls = some market :=
  (Option.some_get _).symm

theorem eq_ok_of_toOption {ε α : Type} {x : Except ε α} {a : α} (h : x.toOption = some a) :
    x = .ok a := by
  cases x with
  | error => cases h
  | ok => exact congrArg Except.ok (Option.some.inj h)

theorem derived_market :
    market.derived = .ok [[("Item", itemOf "shop")], [("Item", itemOf "bank")]] :=
  eq_ok_of_toOption (by decide +kernel)

/-- The market is converted, to a graph without strings. -/
theorem exists_addTypes_market : ∃ b', (market.addTypes .new).1 = .ok b' ∧
    ∀ n ∈ b'.graph.nodes, n.kind.isStringLike = false := by
  have h : ((market.addTypes .new).1.toOption.any fun b =>
      b.graph.nodes.all fun n => !n.kind.isStringLike) = true := by decide +kernel
  obtain ⟨b', hb', hall⟩ := (Option.any_eq_true ..).1 h
  refine ⟨b', eq_ok_of_toOption hb', fun n hn => ?_⟩
  simpa using Array.all_eq_true'.1 hall n hn

/-- Only the item of the second stall is left. -/
theorem not_isTarget_shop : ¬market.IsTarget .new (itemOf "shop") := by
  rintro ⟨g, c, name, t, hbuilt, hget, -⟩
  have hentries : (market.gatherAll.run market.start).2.topLevels.entries =
      [("Sign", itemOf "bank"), ("Item", itemOf "bank")] := by decide +kernel
  rw [hbuilt.gathered] at hentries
  have hmem := List.mem_map_of_mem (f := Prod.snd) (OrderedMap.get?_eq_some_iff.1 hget)
  rw [hentries] at hmem
  exact absurd hmem (by decide : itemOf "shop" ∉ [itemOf "bank", itemOf "bank"])

/-- The item of the second stall is the target of a top level, that of the first one is not. -/
theorem targets_of_registrations_stalls :
    (ofDocuments []).Blank ∧ (ofDocuments []).registerAll? stalls = some market ∧
      (∃ b', (market.addTypes .new).1 = .ok b') ∧ market.IsTarget .new (itemOf "bank") ∧
      ¬market.IsTarget .new (itemOf "shop") := by
  obtain ⟨b', hb', -⟩ := exists_addTypes_market
  have hblank : (ofDocuments []).Blank := ⟨rfl, rfl⟩
  obtain ⟨-, -, hall⟩ := targets_of_registrations hblank registerAll?_stalls rfl hb'
  have hne : market.sources ≠ [] := by
    have hlength : market.sources.length = 2 := by decide +kernel
    exact List.ne_nil_of_length_eq_add_one hlength
  obtain ⟨derived, hderived, -, -, htargets, -⟩ := hall hne
  cases derived_market.symm.trans hderived
  have hbank := (htargets (itemOf "bank")).2 ⟨"Item", by decide⟩
  exact ⟨hblank, registerAll?_stalls, ⟨b', hb'⟩, hbank, not_isTarget_shop⟩

/-- A reference may be lost: both stalls have an item, and the graph has no strings at all. -/
theorem not_forall_isTarget :
    (¬∀ (i₀ i : SchemaInput) (rs : List Registration) (b' : Builder)
      (derived : List (List (String × Reference))), i₀.Blank → i₀.registerAll? rs = some i →
        (i.addTypes .new).1 = .ok b' → i.derived = .ok derived →
          ∀ e ∈ rs.filterMap Registration.reference? ++ derived.flatten, i.IsTarget .new e.2) ∧
    ∃ b', (market.addTypes .new).1 = .ok b' ∧
      ∀ n ∈ b'.graph.nodes, n.kind.isStringLike = false := by
  obtain ⟨b', hb', hstrings⟩ := exists_addTypes_market
  refine ⟨fun h => ?_, b', hb', hstrings⟩
  exact not_isTarget_shop (h _ market stalls b' _ ⟨rfl, rfl⟩ registerAll?_stalls hb' derived_market
    ("Item", itemOf "shop") (by decide))

end SchemaInput

end SchemaTypes

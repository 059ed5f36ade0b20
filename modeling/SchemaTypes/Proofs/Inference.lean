/-
  Inference leaves the classes of schemas alone.

  Where every class is fixed, similar classes are not merged and no maps are made of classes, so
  that the stages of normalization for that do nothing.

  * `Graph.Settled`: what is known of a graph once intersections are resolved and object types are
    replaced;
  * `combineClasses_of_prescribed`, `inferMaps_of_prescribed`: merging and inference do nothing;
  * `run_combineSimilar`, `run_inferAllMaps`: neither do their stages, with all that goes with them;
  * `run_normalize`: so they can be left out;
  * `SchemaInput.tidy_addTypes`: the graphs that schemas are converted to have no classes at all;
  * `inference_leaves_schemas`: so options for inference do not matter for schemas.
-/
import SchemaTypes.Proofs.Answering
import SchemaTypes.Proofs.Convergence
import SchemaTypes.Proofs.Dictionaries
import SchemaTypes.Proofs.FixedClasses
import SchemaTypes.Run

namespace SchemaTypes

namespace Graph

variable {g : Graph} {o : Options}

/-! ## Nothing to merge and nothing to infer -/

/-- A class of a graph is not free for merging where every class is fixed. -/
theorem Prescribed.fixed_of_classProperties (h : g.Prescribed) {r : NodeId} {ps : Properties}
    (hps : g.classProperties? r = some ps) : (g.node r).fixed = true :=
  h r ps (classProperties?_eq_some.1 hps)

/-- **Fixed classes are not merged.** -/
theorem combineClasses_of_prescribed (hg : g.WellFormed) (h : g.Prescribed)
    (sameProperties : Bool) : combineClasses sameProperties g = g := by
  have hnone : g.classGroups sameProperties = [] := by
    have hids : (g.ids.filter fun r => !(g.node r).fixed && (g.classProperties? r).isSome) = [] := by
      refine List.filter_eq_nil_iff.2 fun r _ hr => ?_
      rw [Bool.and_eq_true] at hr
      obtain ⟨ps, hps⟩ := Option.isSome_iff_exists.1 hr.2
      rw [h.fixed_of_classProperties hps] at hr
      cases hr.1
    rw [classGroups, hids]
    rfl
  unfold combineClasses
  rw [hnone]
  exact renameReferences_eq_self hg fun r _ => follow_of_none rfl

/-- **No maps are made of fixed classes.** -/
theorem inferMaps_of_prescribed (h : g.Prescribed) : g.inferMaps = (g, true) :=
  inferMaps_of_noLikeness fun r ps hps => by cases hps.2.symm.trans (h r ps hps.1)

/-! ## Settled graphs -/

/-- The graph is well-formed and every class is fixed. -/
structure Sealed (g : Graph) : Prop where
  wellFormed : g.WellFormed
  prescribed : g.Prescribed

/-- Intersections are resolved and object types replaced: unions are flat, and there is nothing
    that the top levels do not lead to.  All bounds are numbers, or no end would have been found. -/
structure Settled (o : Options) (g : Graph) : Prop extends Sealed g where
  flat : g.Flat o.conflateNumbers
  collected : g.collect = g
  nanFree : g.NaNFree

namespace Sealed

/-- A pass that keeps graphs well-formed and prescribed is applied. -/
theorem step {f : Graph → Graph} (h : g.Sealed) (hkept : g.WellFormed → g.Kept (f g))
    (hprescribed : g.Prescribed → (f g).Prescribed) : (f g).collect.Sealed :=
  ⟨(hkept h.wellFormed).collect.wellFormed, (hprescribed h.prescribed).collect⟩

theorem flatten (h : g.Sealed) (conflate : Bool) : (flattenUnions conflate g).1.collect.Sealed :=
  h.step (f := fun g => (flattenUnions conflate g).1) (kept_flattenUnions conflate)
    (prescribed_flattenUnions conflate)

end Sealed

end Graph

namespace Options

open SchemaTypes.Graph Stage

variable {o : Options} {g : Graph}

theorem ensures_flattenAll_settled (h : g.Sealed) :
    Ensures o.flattenAll g fun _ => Settled o := by
  refine (ensures_toFixedPoint (I := Sealed)
    (Q := fun g' => g'.Flat o.conflateNumbers ∧ g'.collect = g' ∧ g'.NaNFree)
    (fun _ g hg => hg.flatten _) (fun _ g hg hsame hdone => ?_) h).mono
    fun _ _ hg => ⟨hg.1, hg.2.1, hg.2.2.1, hg.2.2.2⟩
  exact ⟨(flat_of_flattenUnions hdone).collect,
    collect_collect (kept_flattenUnions _ hg.wellFormed).wellFormed, nanFree_of_same hsame⟩

/-- **What resolving intersections and replacing object types leads to.** -/
theorem ensures_resolveAll_settled (h : g.Sealed) :
    Ensures o.resolveAll g fun _ => Settled o := by
  have hstep : ∀ {g : Graph}, g.Sealed →
      (resolveAndFlatten o.conflateNumbers g).1.collect.Sealed := fun {g} hg =>
    hg.step (f := fun g => (resolveAndFlatten o.conflateNumbers g).1)
      (kept_resolveAndFlatten _) fun hp =>
        prescribed_flattenUnions _ (prescribed_resolveIntersections hp)
  refine (ensures_change (Q := Sealed) ?_).seq fun _ g₁ h => ?_
  · exact h.step kept_removeIndirections prescribed_removeIndirections
  refine Ensures.seq (R := fun _ => Sealed) ?_ fun _ g₂ h => ?_
  · exact (ensures_toFixedPoint (I := Sealed) (Q := fun _ => True) (fun _ _ hg => hstep hg)
      (fun _ _ _ _ _ => trivial) h).mono fun _ _ => And.left
  refine (ensures_change (Q := Sealed) ?_).seq fun _ g₃ h => ensures_flattenAll_settled h
  exact h.step (kept_replaceObjects _) (prescribed_replaceObjects _)

/-! ## Stages that do nothing -/

/-- A pass in turn is done at once if it is done and changes nothing. -/
theorem run_toFixedPoint_of_done {pass : Pass} (hpass : pass g = (g, true))
    (hcollected : g.collect = g) (hnan : g.NaNFree) (stage : String) :
    (toFixedPoint stage fun _ => pass).run g = (.ok ⟨⟩, g) := by
  rw [run_toFixedPoint_of_nanFree (by rw [hpass]) hcollected hnan, hpass, if_pos rfl]

theorem run_flattenAll (h : Settled o g) : o.flattenAll.run g = (.ok ⟨⟩, g) :=
  run_toFixedPoint_of_done (flattenUnions_of_flat h.wellFormed h.collected h.flat) h.collected
    h.nanFree _

/-- **Merging similar classes does nothing**, and nothing has to be cleaned up. -/
theorem run_combineSimilar (h : Settled o g) : o.combineSimilar.run g = (.ok ⟨⟩, g) := by
  have honce : (once (.ofChange (Graph.combineClasses true))).run g = (.ok false, g) := by
    show (Except.ok (!(Graph.combineClasses true g).collect.same g),
      (Graph.combineClasses true g).collect) = _
    rw [combineClasses_of_prescribed h.wellFormed h.prescribed, h.collected,
      h.nanFree.same_self]
    rfl
  rw [combineSimilar, run_bind, honce]
  rfl

/-- **Making maps of classes does nothing**, and nothing has to be flattened. -/
theorem run_inferAllMaps (h : Settled o g) : o.inferAllMaps.run g = (.ok ⟨⟩, g) := by
  rw [inferAllMaps, run_bind,
    run_toFixedPoint_of_done (inferMaps_of_prescribed h.prescribed) h.collected h.nanFree]
  exact run_flattenAll h

theorem run_optionally {m : StageM Unit} (h : m.run g = (.ok ⟨⟩, g)) (c : Bool) :
    (optionally c m).run g = (.ok ⟨⟩, g) := by
  cases c with
  | true => exact h
  | false => rfl

/-- Normalization of a graph from schemas without merging classes and making maps of them. -/
def normalizeSchemas (o : Options) : StageM Unit := do
  o.resolveAll
  o.expandAll true
  o.simplifyAll true
  o.representAll
  o.finish true

/-- **Where every class is fixed, merging classes and making maps of them can be left out.** -/
theorem run_normalize (o : Options) (h : g.Sealed) :
    (o.normalize true).run g = o.normalizeSchemas.run g := by
  have hsettled := ensures_resolveAll_settled (o := o) h
  rw [normalize_eq, normalizeSchemas, run_bind, run_bind]
  split
  · next g₁ hrun =>
    have h₁ := hsettled _ _ hrun
    rw [run_bind, run_optionally (run_combineSimilar h₁)]
    dsimp only
    rw [run_bind, run_optionally (run_inferAllMaps h₁)]
  · rfl

end Options

/-! ## Graphs of schemas -/

theorem SchemaInput.tidy_addTypes {i : SchemaInput} {b b' : Builder} (hb : b.Tidy)
    (h : (i.addTypes b).1 = .ok b') : b'.Tidy := by
  unfold SchemaInput.addTypes at h
  split at h
  · cases h
    exact hb
  · dsimp only at h
    split at h
    next gathered g _ =>
    cases gathered with
    | error => cases h
    | ok =>
      dsimp only at h
      split at h
      next converted c hrun =>
      cases converted with
      | error => cases h
      | ok =>
        cases h
        have hst := Conversion.ensures_addTopLevels _ (Conversion.orderly_start hb) () _ hrun
        exact ⟨hst.shares, hst.wellFormed, hst.classless⟩

/-- Inputs that are schemas. -/
def Inputs.AreSchemas (is : Inputs) : Prop := ∀ i ∈ is, ∃ s, i = .schema s

namespace Inputs

variable {is is' : Inputs} {b b' : Builder}

theorem addTypes_spec (his : is.AreSchemas) (hb : b.Tidy)
    (h : is.addTypes b = (.ok b', is')) : b'.Tidy ∧ is'.AreSchemas ∧ is'.length = is.length := by
  induction is generalizing b is' with
  | nil =>
    cases h
    exact ⟨hb, his, rfl⟩
  | cons i rest ih =>
    obtain ⟨s, rfl⟩ := his i List.mem_cons_self
    have hrest : Inputs.AreSchemas rest := fun j hj => his j (List.mem_cons_of_mem _ hj)
    simp only [addTypes, Input.addTypes] at h
    cases hadd : (s.addTypes b).1 with
    | error e =>
      rw [hadd] at h
      cases h
    | ok b₁ =>
      rw [hadd] at h
      dsimp only at h
      obtain ⟨hfst, rfl⟩ := Prod.ext_iff.1 h
      have hok : addTypes b₁ rest = (.ok b', (addTypes b₁ rest).2) := Prod.ext hfst rfl
      obtain ⟨hb', hrest', hlength⟩ := ih hrest (SchemaInput.tidy_addTypes hb hadd) hok
      refine ⟨hb', fun j hj => ?_, congrArg (· + 1) hlength⟩
      rcases List.mem_cons.1 hj with rfl | hj
      · exact ⟨_, rfl⟩
      · exact hrest' j hj

/-- **Schemas are converted to graphs without classes**, and are still schemas afterwards. -/
theorem convert_spec (his : is.AreSchemas) {o : Options} {g : Graph}
    (h : is.convert o = (.ok g, is')) :
    g.WellFormed ∧ (∀ r ps, g.kind r ≠ .record ps) ∧ is'.AreSchemas ∧ is'.length = is.length := by
  obtain ⟨hfst, rfl⟩ := Prod.ext_iff.1 h
  cases hadd : (is.addTypes (.new o.allPropertiesOptional)).1 with
  | error e =>
    simp [convert, hadd, Except.map] at hfst
  | ok b =>
    simp only [convert, hadd, Except.map, Except.ok.injEq] at hfst
    subst hfst
    obtain ⟨hb, his', hlength⟩ := addTypes_spec his (Builder.tidy_new _) (Prod.ext hadd rfl)
    exact ⟨hb.wellFormed, hb.classless, his', hlength⟩

/-- Schemas are normalized as such. -/
theorem AreSchemas.fromSchemas (his : is.AreSchemas) (hne : is ≠ []) : is.fromSchemas = true := by
  obtain ⟨i, hi⟩ := List.exists_mem_of_ne_nil is hne
  obtain ⟨s, rfl⟩ := his i hi
  exact List.any_eq_true.2 ⟨_, hi, rfl⟩

end Inputs

namespace Options

/-- The options, with others for inference. -/
def withInference (o : Options) (combineClasses inferMaps inferEnums : Bool) : Options :=
  { o with combineClasses, inferMaps, inferEnums }

/-- **Inference leaves schemas alone.**  Where a graph has no classes before normalization, as is so
    for whatever schemas are converted to, it does not matter whether classes are merged, made maps
    of, or strings made enumerations: the graph or the error is the same. -/
theorem inference_leaves_schemas (o : Options) (combineClasses inferMaps inferEnums : Bool) :
    (∀ g : Graph, g.WellFormed → (∀ r ps, g.kind r ≠ .record ps) →
      ((o.withInference combineClasses inferMaps inferEnums).normalize true).run g =
        (o.normalize true).run g) ∧
    ∀ is : Inputs, is.AreSchemas →
      (∀ g is', is.convert o = (.ok g, is') →
        g.WellFormed ∧ ∀ r ps, g.kind r ≠ .record ps) ∧
      (is ≠ [] → is.makeGraph (o.withInference combineClasses inferMaps inferEnums) =
        is.makeGraph o) := by
  have hrun : ∀ g : Graph, g.WellFormed → (∀ r ps, g.kind r ≠ .record ps) →
      ((o.withInference combineClasses inferMaps inferEnums).normalize true).run g =
        (o.normalize true).run g := by
    intro g hg hclasses
    have hsealed : g.Sealed := ⟨hg, Graph.prescribed_of_no_record hclasses⟩
    rw [run_normalize _ hsealed, run_normalize _ hsealed]
    rfl
  refine ⟨hrun, fun is his => ⟨fun g is' h => ?_, fun hne => ?_⟩⟩
  · obtain ⟨hg, hclasses, -, -⟩ := Inputs.convert_spec his h
    exact ⟨hg, hclasses⟩
  · have hconvert : is.convert (o.withInference combineClasses inferMaps inferEnums) =
        is.convert o := rfl
    unfold Inputs.makeGraph
    rw [hconvert]
    cases h : is.convert o with
    | mk result is' =>
      cases result with
      | error e => rfl
      | ok g =>
        obtain ⟨hg, hclasses, his', hlength⟩ := Inputs.convert_spec his h
        have hne' : is' ≠ [] := by
          rintro rfl
          exact hne (List.length_eq_zero_iff.1 hlength.symm)
        dsimp only
        rw [his'.fromSchemas hne', hrun g hg hclasses]

/-- Two types of objects that have properties of one name. -/
def ledger : Graph where
  nodes := #[.new .integer, .new (.object (.ofList [("share", ⟨0, true⟩)]) none),
    .new (.object (.ofList [("share", ⟨1, true⟩)]) none)]
  topLevels := .ofList [("Ledger", 2)]

/-- The same as a schema. -/
def ledgerInputs : Inputs :=
  let share (v : Json) : Json :=
    .object [("type", .string "object"), ("properties", .object [("share", v)])]
  let schema := share (share (.object [("type", .string "integer")]))
  [.schema ((SchemaInput.ofDocuments []).addSource ⟨"Ledger", none, some (.value schema), false⟩).2]

/-- They stay two classes, whatever is inferred. -/
theorem inference_leaves_ledger :
    ledger.WellFormed ∧ (∀ r ps, ledger.kind r ≠ .record ps) ∧
      (((ofTarget .default).withInference false false false).normalize true).run ledger =
        ((ofTarget .default).normalize true).run ledger ∧
      (((ofTarget .default).normalize true).run ledger).2.size = 3 ∧
      ledgerInputs.AreSchemas ∧
      ledgerInputs.makeGraph ((ofTarget .default).withInference false false false) =
        ledgerInputs.makeGraph (ofTarget .default) ∧
      (ledgerInputs.makeGraph (ofTarget .default)).1.isOk = true := by
  have hclasses : ∀ r ps, ledger.kind r ≠ .record ps := by
    intro r ps
    match r with
    | 0 | 1 | 2 => simp [ledger, Graph.kind, Graph.node, Node.new]
    | r + 3 =>
      rw [Graph.kind_eq_nothing_of_le (Nat.le_add_left 3 r)]
      simp
  have hwell : ledger.WellFormed := ⟨by decide, by decide⟩
  have hschemas : ledgerInputs.AreSchemas := fun i hi => ⟨_, List.mem_singleton.1 hi⟩
  obtain ⟨hrun, hinputs⟩ := inference_leaves_schemas (ofTarget .default) false false false
  exact ⟨hwell, hclasses, hrun ledger hwell hclasses, by decide +kernel, hschemas,
    (hinputs ledgerInputs hschemas).2 (List.cons_ne_nil _ _), by decide +kernel⟩

end Options

end SchemaTypes

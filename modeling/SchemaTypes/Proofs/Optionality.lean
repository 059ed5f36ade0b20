/-
  Properties that are all optional.

  Where every property is optional, it stays so through normalization, as long as the target
  supports optional properties; and where all are entered as optional, conversion makes no other.

  * `Properties.AllOptional`, `NodeClass.heritable_optional`: a property of united types is optional
    if it is somewhere, one of met types if it is everywhere;
  * `Options.proceeds_normalize`: normalization goes by steps that keep any class of nodes;
  * `Builder.invariant_lenient`: builders that make every property optional keep it so;
  * `all_optional_survives`: so the graph of every run has only optional properties.
-/
import SchemaTypes.Proofs.Building
import SchemaTypes.Proofs.References

namespace SchemaTypes

open SchemaTypes.Graph

/-! ## Properties -/

/-- All properties may be absent. -/
def Properties.AllOptional (ps : Properties) : Prop :=
  ∀ name p, ps.get? name = some p → p.optional = true

namespace Properties

variable {ps : Properties}

theorem allOptional_empty : AllOptional ∅ := fun _ _ h => by cases h

theorem AllOptional.insert (h : ps.AllOptional) {name : String} {p : Property}
    (hp : p.optional = true) : AllOptional (OrderedMap.insert ps name p) := by
  intro name' p' h'
  replace h' := (OrderedMap.get?_insert ..).symm.trans h'
  split at h'
  · cases h'
    exact hp
  · exact h name' p' h'

theorem AllOptional.mapTypes (h : ps.AllOptional) (f : NodeId → NodeId) :
    (ps.mapTypes f).AllOptional := by
  intro name p hp
  replace hp := (OrderedMap.get?_mapValues ..).symm.trans hp
  obtain ⟨q, hq, rfl⟩ := Option.map_eq_some_iff.1 hp
  exact h name q hq

/-- No view of optional properties requires one. -/
theorem AllOptional.requires_eq {v : ObjectView} (h : v.properties.AllOptional) (name : String) :
    v.requires name = false := by
  unfold ObjectView.requires
  split
  · next p hp => rw [h name p hp, Bool.not_true]
  · rfl

end Properties

namespace NodeClass

/-- Nodes of which all properties may be absent. -/
def optional : NodeClass := ⟨Properties.AllOptional, fun _ => True⟩

/-- **Properties that are made of optional ones are optional.** -/
theorem heritable_optional : optional.Heritable where
  empty := Properties.allOptional_empty
  rename f ps h := h.mapTypes f
  sort le ps h name p hp := h name p ((OrderedMap.get?_sortKeys ..).symm.trans hp)
  unite {views} _ name _ hv hname hps := by
    obtain ⟨v, hmem, -⟩ := ObjectView.mem_names.1 hname
    refine hps.insert (List.any_eq_true.2 ⟨v, hmem, ?_⟩)
    rw [(hv v hmem).requires_eq, Bool.not_false]
  meet {views} _ name _ hv hps := by
    have hnone : (views.any fun v => v.requires name) = false :=
      List.any_eq_false.2 fun v hmem => Bool.eq_false_iff.1 ((hv v hmem).requires_eq name)
    exact hps.insert (congrArg not hnone)
  noAttributes := trivial
  bounds _ _ _ := trivial
  combine _ _ _ _ _ := trivial

end NodeClass

/-- All properties of all classes and object types may be absent. -/
def Graph.AllOptional (g : Graph) : Prop := ∀ r, (g.kind r).properties.AllOptional

theorem Graph.allOptional_of_values {g : Graph}
    (h : ∀ n ∈ g.nodes, ∀ p ∈ n.kind.properties.values, p.optional = true) : g.AllOptional := by
  intro r name p hp
  by_cases hr : r < g.size
  · exact h _ (node_mem hr) p (OrderedMap.mem_values_of_get? hp)
  · rw [kind_eq_nothing_of_le (Nat.not_lt.1 hr)] at hp
    cases hp

/-! ## Normalization -/

namespace Options

open Stage

variable {C : NodeClass} {o : Options}

section

variable (hC : C.Heritable)

include hC

theorem proceeds_flattenAll : Proceeds C o.flattenAll :=
  proceeds_toFixedPoint hC fun _ _ hg => steps_flattenUnions hC _ hg

theorem proceeds_resolveAll : Proceeds C o.resolveAll := by
  have hresolve : PassProceeds C (Graph.resolveAndFlatten o.conflateNumbers) := fun g hg => by
    have hsteps := steps_resolveIntersections hC hg
    exact hsteps.trans (steps_flattenUnions hC _ (hsteps.fit hC hg).1)
  have hindirections : PassProceeds C (.ofChange Graph.removeIndirections) := fun g hg =>
    steps_removeIndirections hC hg
  have hobjects : PassProceeds C (.ofChange (Graph.replaceObjects o.target.fullObjects)) :=
    fun g hg => (edits_replaceObjects hC _ hg).steps
  refine (proceeds_once hC hindirections).discard.bind hC fun _ => ?_
  refine (proceeds_toFixedPoint hC fun _ => hresolve).bind hC fun _ => ?_
  exact (proceeds_once hC hobjects).discard.bind hC fun _ => proceeds_flattenAll hC

theorem proceeds_combineSimilar : Proceeds C o.combineSimilar := by
  have hcombine : ∀ same, PassProceeds C (.ofChange (Graph.combineClasses same)) := fun same g hg =>
    steps_combineClasses hC same hg
  refine (proceeds_once hC (hcombine true)).bind hC fun changed => ?_
  split
  · exact (proceeds_once hC (hcombine false)).discard.bind hC fun _ => proceeds_flattenAll hC
  · exact .pure

theorem proceeds_inferAllMaps : Proceeds C o.inferAllMaps :=
  (proceeds_toFixedPoint hC fun _ _ hg => (edits_inferMaps hC hg).steps).bind hC fun _ =>
    proceeds_flattenAll hC

theorem proceeds_expandAll (fromSchemas : Bool) : Proceeds C (o.expandAll fromSchemas) := by
  have hexpand : PassProceeds C (.ofChange (Graph.expandStrings (o.enumInference fromSchemas))) :=
    fun g hg => (edits_expandStrings hC _ hg).steps
  exact (proceeds_once hC hexpand).discard.bind hC fun _ =>
    proceeds_exactlyOnce hC fun _ hg => steps_flattenUnions hC _ hg

/-- Properties are only made required where the target cannot have optional ones. -/
theorem proceeds_simplifyAll (fromSchemas : Bool) (ho : o.target.optionalProperties = true) :
    Proceeds C (o.simplifyAll fromSchemas) := by
  have habsorb : PassProceeds C (.ofChange Graph.absorbStrings) := fun g hg =>
    steps_absorbStrings hC hg
  have hany : PassProceeds C (.ofChange Graph.nothingToAny) := fun g hg =>
    (edits_nothingToAny hC hg).steps
  refine (Proceeds.optionally fun _ => (proceeds_once hC habsorb).discard).bind hC fun _ => ?_
  refine (proceeds_once hC hany).discard.bind hC fun _ => ?_
  refine (Proceeds.optionally fun h => ?_).bind hC fun _ => ?_
  · rw [ho] at h
    cases h
  · exact proceeds_toFixedPoint hC fun _ g _ => steps_mergeDuplicates C g

theorem proceeds_representAll : Proceeds C o.representAll := by
  have hrepresent : PassProceeds C (.ofChange (Graph.representFormats o.representation)) :=
    fun g hg => (edits_representFormats hC _ hg).steps
  exact (proceeds_once hC hrepresent).discard.bind hC fun _ =>
    proceeds_exactlyOnce hC fun _ hg => steps_flattenUnions hC _ hg

theorem proceeds_finish (fromSchemas : Bool) : Proceeds C (o.finish fromSchemas) := by
  refine (Proceeds.modify fun g hg => ?_).bind hC fun _ => .modify fun g hg =>
    (edits_gatherNames hC fromSchemas hg).steps
  have hcollect : Steps C g g.collect := .single .collect
  split
  · exact hcollect.edits (edits_sortProperties hC (hcollect.fit hC hg).1)
  · exact hcollect

/-- **Normalization goes by steps that keep any class of nodes**, where the target supports
    optional ones. -/
theorem proceeds_normalize (fromSchemas : Bool) (ho : o.target.optionalProperties = true) :
    Proceeds C (o.normalize fromSchemas) := by
  rw [normalize_eq]
  refine (proceeds_resolveAll hC).bind hC fun _ => ?_
  refine (Proceeds.optionally fun _ => proceeds_combineSimilar hC).bind hC fun _ => ?_
  refine (Proceeds.optionally fun _ => proceeds_inferAllMaps hC).bind hC fun _ => ?_
  refine (proceeds_expandAll hC fromSchemas).bind hC fun _ => ?_
  refine (proceeds_simplifyAll hC fromSchemas ho).bind hC fun _ => ?_
  exact (proceeds_representAll hC).bind hC fun _ => proceeds_finish hC fromSchemas

end

end Options

/-! ## Conversion -/

namespace Builder

/-- Every property is made optional, and all so far are. -/
structure Lenient (b : Builder) : Prop where
  allOptional : b.allOptional = true
  properties : b.graph.AllOptional

variable {b : Builder}

theorem Lenient.add (hb : b.Lenient) {n : Node} (hn : n.kind.properties.AllOptional) :
    (b.add n).2.Lenient where
  allOptional := hb.allOptional
  properties r := by
    show ((b.graph.push n).kind r).properties.AllOptional
    rw [kind_push]
    split
    · exact hn
    · exact hb.properties r

theorem Lenient.modify (hb : b.Lenient) (r : NodeId) {f : Node → Node}
    (hf : (f (b.graph.node r)).kind.properties.AllOptional) :
    Lenient { b with graph := b.graph.modify r f } where
  allOptional := hb.allOptional
  properties s := by
    show ((b.graph.modify r f).kind s).properties.AllOptional
    by_cases hs : s < b.graph.size
    · rw [kind_modify _ _ _ _ hs]
      split
      · next hrs => exact hrs ▸ hf
      · exact hb.properties s
    · rw [kind_eq_nothing_of_le ((size_modify ..).symm ▸ Nat.not_lt.1 hs)]
      exact Properties.allOptional_empty

theorem Lenient.adjust (hb : b.Lenient) (ps : Properties) : (b.adjust ps).AllOptional := by
  intro name p hp
  rw [Builder.adjust, if_pos hb.allOptional] at hp
  replace hp := (OrderedMap.get?_mapValues ..).symm.trans hp
  obtain ⟨q, -, rfl⟩ := Option.map_eq_some_iff.1 hp
  rfl

/-- **Each operation of a builder keeps all properties optional.** -/
theorem invariant_lenient : Invariant Lenient where
  add {b n} hn hb := hb.add (hn ▸ Properties.allOptional_empty)
  share _ hb := ⟨hb.allOptional, hb.properties⟩
  object ps _ _ hb := hb.add (hb.adjust ps)
  setMembers r members hb := by
    unfold Builder.setMembers
    split
    · exact hb.modify r Properties.allOptional_empty
    · exact hb
  addAttributes r a hb := by
    unfold Builder.addAttributes Graph.addAttributes
    split
    · exact hb
    · exact hb.modify r (hb.properties r)
  addTopLevel {b} name r hb := by
    have hnodes : (b.graph.addTopLevel name r).2.nodes = b.graph.nodes := by
      unfold Graph.addTopLevel
      split <;> rfl
    refine ⟨hb.allOptional, fun x => ?_⟩
    show ((b.graph.addTopLevel name r).2.kind x).properties.AllOptional
    rw [kind, node, hnodes]
    exact hb.properties x

theorem lenient_new : (Builder.new true).Lenient where
  allOptional := rfl
  properties r := by
    show ((∅ : Graph).kind r).properties.AllOptional
    rw [kind_eq_nothing_of_le (Nat.zero_le r)]
    exact Properties.allOptional_empty

end Builder

theorem Inputs.allOptional_convert {is is' : Inputs} (his : is.AreSchemas) {o : Options}
    (ho : o.allPropertiesOptional = true) {g : Graph} (h : is.convert o = (.ok g, is')) :
    g.AllOptional := by
  obtain ⟨hfst, -⟩ := Prod.ext_iff.1 h
  cases hadd : (is.addTypes (.new o.allPropertiesOptional)).1 with
  | error e => simp [convert, hadd, Except.map] at hfst
  | ok b =>
    simp only [convert, hadd, Except.map, Except.ok.injEq] at hfst
    subst hfst
    rw [ho] at hadd
    exact (Inputs.invariant_addTypes Builder.invariant_lenient his Builder.lenient_new
      hadd).properties

/-! ## Runs -/

namespace Options

/-- **Optional properties stay optional.**  Where the target supports optional properties,
    normalization leaves every property optional in a well-formed graph in which all are, whether
    the graph comes from schemas or not, and whether normalization succeeds or fails.  So where all
    properties are made optional, the graph of a run on schemas has only optional ones. -/
theorem all_optional_survives (o : Options) (ho : o.target.optionalProperties = true) :
    (∀ (g : Graph) (fromSchemas : Bool), g.WellFormed → g.AllOptional →
      ((o.normalize fromSchemas).run g).2.AllOptional) ∧
    (o.allPropertiesOptional = true → ∀ is : Inputs, is.AreSchemas →
      ∀ g is', is.makeGraph o = (.ok g, is') → g.AllOptional) := by
  have hC := NodeClass.heritable_optional
  have hrun : ∀ (g : Graph) (fromSchemas : Bool), g.WellFormed → g.AllOptional →
      ((o.normalize fromSchemas).run g).2.AllOptional := by
    intro g fromSchemas hg hall
    have hfit : g.Fit .optional := ⟨hg, fun r => ⟨hall r, trivial⟩⟩
    have hsteps := (proceeds_normalize hC fromSchemas ho g hfit).reaches
    exact (Steps.fit hC hsteps hfit).1.properties
  refine ⟨hrun, fun hopt is his g is' h => ?_⟩
  unfold Inputs.makeGraph at h
  cases hconvert : is.convert o with
  | mk result is₁ =>
    rw [hconvert] at h
    cases result with
    | error e => cases h
    | ok g₀ =>
      dsimp only at h
      have hg₀ := (Inputs.convert_spec his hconvert).1
      have hall := hrun g₀ is₁.fromSchemas hg₀ (Inputs.allOptional_convert his hopt hconvert)
      generalize (o.normalize is₁.fromSchemas).run g₀ = x at h hall
      obtain ⟨_ | _, g₁⟩ := x
      · cases h
      · cases h
        exact hall

/-- Shares that have an amount, and shares that may have an owner; and those that are both. -/
def shares : Graph where
  nodes := #[.new .integer, .new (.string none),
    .new (.object (.ofList [("amount", ⟨0, true⟩)]) none),
    .new (.object (.ofList [("amount", ⟨0, true⟩), ("owner", ⟨1, true⟩)]) (some 1)),
    .new (.intersection (.ofList [2, 3])), .new (.union (.ofList [2, 3]))]
  topLevels := .ofList [("Owned", 4), ("Share", 5)]

/-- A schema that requires an amount. -/
def sharesInputs : Inputs :=
  let schema : Json := .object [("type", .string "object"), ("required", .array [.string "amount"]),
    ("properties", .object [("amount", .object [("type", .string "integer")])])]
  [.schema ((SchemaInput.ofDocuments []).addSource ⟨"Share", none, some (.value schema), false⟩).2]

/-- The amount stays optional, also where a schema requires it. -/
theorem all_optional_survives_shares :
    let o := { ofTarget .default with allPropertiesOptional := true }
    o.target.optionalProperties = true ∧ shares.WellFormed ∧ shares.AllOptional ∧
      ((o.normalize true).run shares).1.isOk = true ∧
      ((o.normalize true).run shares).2.kind 0 =
        .record (.ofList [("amount", ⟨1, true⟩), ("owner", ⟨2, true⟩)]) ∧
      ((o.normalize true).run shares).2.AllOptional ∧
      sharesInputs.AreSchemas ∧ ∃ g is', sharesInputs.makeGraph o = (.ok g, is') ∧
        g.kind 0 = .record (.ofList [("amount", ⟨1, true⟩)]) ∧ g.AllOptional := by
  intro o
  have hwell : shares.WellFormed := ⟨by decide, by decide⟩
  have hall : shares.AllOptional := allOptional_of_values (by decide)
  have hschemas : sharesInputs.AreSchemas := fun i hi => ⟨_, List.mem_singleton.1 hi⟩
  obtain ⟨hrun, hinputs⟩ := all_optional_survives o rfl
  refine ⟨rfl, hwell, hall, by decide +kernel, by decide +kernel, hrun shares true hwell hall,
    hschemas, ?_⟩
  have hkind : (sharesInputs.makeGraph o).1.toOption.map (·.kind 0) =
      some (.record (.ofList [("amount", ⟨1, true⟩)])) := by decide +kernel
  cases h : sharesInputs.makeGraph o with
  | mk result is' =>
    rw [h] at hkind
    cases result with
    | error e => cases hkind
    | ok g => exact ⟨g, is', rfl, Option.some.inj hkind, hinputs rfl sharesInputs hschemas g is' h⟩

end Options

end SchemaTypes

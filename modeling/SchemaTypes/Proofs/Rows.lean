/-
  Passes as rows of edits.

  * `steps_removeIndirections`, `steps_combineClasses` and so on: each pass is a row of steps;
  * `edits_replaceObjects`, `edits_gatherNames` and so on: where nothing is redirected, of edits
    alone;
  * `edits_optionalToNullable`: so is making properties required, but here all properties are
    allowed;
  * `kept_removeIndirections`, `kept_replaceObjects` and so on: each pass keeps a well-formed graph.
-/
import SchemaTypes.Graph.Duplicates
import SchemaTypes.Graph.Indirection
import SchemaTypes.Proofs.Classes
import SchemaTypes.Proofs.Edits
import SchemaTypes.Proofs.Naming

namespace SchemaTypes.Graph

variable {C : NodeClass} {g : Graph} {r : NodeId}

/-! ## Indirections -/

theorem within_indirections (hg : g.WellFormed) : g.indirections.Within g.size := by
  intro r t ht
  obtain ⟨s, -, hs⟩ := List.mem_filterMap.1 (SortedMap.mem_of_get?_ofList ht)
  split at hs
  · next ms hms =>
    split at hs
    · next only honly =>
      split at hs
      · cases hs
      · cases hs
        refine hg.lt_of_mem_children (r := r) ?_
        rw [hms, Kind.children, honly]
        exact List.mem_singleton_self _
    · cases hs
  · cases hs

theorem edits_moveAttributes (hC : C.Heritable) (hg : g.Fit C) {moved : Redirection}
    (hm : moved.Within g.size) (r : NodeId) : Edits C g (moveAttributes moved g r) := by
  unfold moveAttributes
  split
  · exact .refl
  · next hne =>
    -- the end of a chain is its start or a target
    have hend : moved.follow r = r ∨ moved.follow r < g.size :=
      follow_induction (P := fun t => t = r ∨ t < g.size) (fun r t ht _ => .inr (hm r t ht))
        (.inl rfl)
    exact edits_addAttributes hC hg (hend.resolve_left hne) (hg.attributes r)

theorem steps_removeIndirections (hC : C.Heritable) (hg : g.Fit C) :
    Steps C g g.removeIndirections := by
  have hm := within_indirections hg.wellFormed
  have hfold : Edits C g (g.indirections.keys.foldl (moveAttributes g.indirections) g) :=
    .foldl hg fun g₁ h hg₁ r _ => edits_moveAttributes hC hg₁ (hm.mono h.size_le) r
  exact hfold.forward (hm.mono hfold.size_le)

/-! ## Objects -/

theorem types_lt_of_record (hg : g.WellFormed) {ps : Properties} (hr : g.kind r = .record ps) :
    ∀ c ∈ ps.types, c < g.size := fun c hc =>
  hg.lt_of_mem_children (r := r) (by rw [hr]; exact hc)

section

variable (hC : C.Heritable)

include hC

/-- A node becomes a map to a union of types. -/
theorem edits_setMap (hg : g.Fit C) (hr : r < g.size) {ms : SortedSet NodeId}
    (hms : ∀ m ∈ ms, m < g.size) :
    Edits C g ((g.unionOf ms).2.setKind r (.map (g.unionOf ms).1)) := by
  obtain ⟨hedits, hlt⟩ := yields_unionOf hC hms
  exact hedits.tail (.modify (Nat.lt_of_lt_of_le hr hedits.size_le)
    (fun _ hc => List.mem_singleton.1 hc ▸ hlt) ⟨hC.empty, (hedits.fit hg).attributes r⟩)

theorem edits_replaceObject (leaveFull : Bool) (hg : g.Fit C) (r : NodeId) :
    Edits C g (replaceObject leaveFull g r) := by
  have hlt : ∀ {ps additional}, g.kind r = .object ps additional → r < g.size := fun hr =>
    lt_size_of_isObjectLike (hr ▸ rfl)
  have hchild : ∀ {ps additional}, g.kind r = .object ps additional →
      ∀ c ∈ ps.types ++ additional.toList, c < g.size := fun hr c hc =>
    hg.wellFormed.lt_of_mem_children (r := r) (by rw [hr]; exact hc)
  refine replaceObject_cases (fun _ => .refl) (fun _ _ _ _ => .refl) (fun ps additional hr => ?_)
    (fun ps values hr _ => ?_) fun ps values hr => ?_
  · have hps : C.properties (Kind.object ps additional).properties := hr ▸ hg.properties r
    exact .single (.modify (hlt hr) (fun c hc => hchild hr c (List.mem_append_left _ hc))
      ⟨hps, hg.attributes r⟩)
  · refine .single (.modify (hlt hr) (fun c hc => ?_) ⟨hC.empty, hg.attributes r⟩)
    exact hchild hr c (List.mem_append_right _ hc)
  · refine edits_setMap hC hg (hlt hr) fun m hm => hchild hr m (List.mem_append.2 ?_)
    exact (List.mem_cons.1 (SortedSet.mem_ofList.1 hm)).symm.imp_right fun hm =>
      List.mem_singleton.2 hm

theorem edits_replaceObjects (leaveFull : Bool) (hg : g.Fit C) :
    Edits C g (replaceObjects leaveFull g) :=
  .foldl hg fun _ _ hg₁ r _ => edits_replaceObject hC leaveFull hg₁ r

theorem edits_mergeGroup (hg : g.Fit C) {group : ClassGroup} (hgroup : group.1 < g.size) :
    Edits C g (g.mergeGroup group) := by
  obtain ⟨hedits, hps⟩ := edits_unifyObjects hC hg (group.1 :: group.2)
  have hlt := (unified_unifyObjects hg.wellFormed (group.1 :: group.2)).lt_size
  exact hedits.tail (.modify (Nat.lt_of_lt_of_le hgroup hedits.size_le) hlt hps)

omit hC in
/-- The first class of a group is a class of the graph. -/
theorem lt_of_mem_classGroups {same : Bool} {group : ClassGroup}
    (h : group ∈ g.classGroups same) : group.1 < g.size := by
  have hmem := (perm_classGroups same g).subset
    (List.mem_flatMap.2 ⟨group, h, List.mem_cons_self⟩)
  exact List.mem_range.1 (List.mem_filter.1 hmem).1

theorem steps_combineClasses (same : Bool) (hg : g.Fit C) :
    Steps C g (combineClasses same g) := by
  unfold combineClasses
  extract_lets groups moved
  have hgroups : ∀ group ∈ groups, group.1 < g.size := fun group hgroup =>
    lt_of_mem_classGroups (List.mem_filter.1 hgroup).1
  have hfold : Edits C g (groups.foldl mergeGroup g) :=
    .foldl hg fun _ h hg₁ group hgroup =>
      edits_mergeGroup hC hg₁ (Nat.lt_of_lt_of_le (hgroups group hgroup) h.size_le)
  refine hfold.forward fun r t ht => ?_
  obtain ⟨group, hgroup, hr⟩ := List.mem_flatMap.1 (SortedMap.mem_of_get?_ofList ht)
  obtain ⟨c, -, he⟩ := List.mem_map.1 hr
  cases he
  exact Nat.lt_of_lt_of_le (hgroups group hgroup) hfold.size_le

theorem edits_inferMap (hg : g.Fit C) (r : NodeId) : Edits C g (g.inferMap r).2 := by
  rcases inferMap_cases g r with ⟨-, heq⟩ | ⟨ps, ⟨hr, -⟩, -, heq⟩
  · exact heq ▸ .refl
  · rw [heq]
    exact edits_setMap hC hg (lt_size_of_record hr) fun m hm =>
      types_lt_of_record hg.wellFormed hr m (SortedSet.mem_ofList.1 hm)

theorem edits_inferMaps (hg : g.Fit C) : Edits C g g.inferMaps.1 := by
  rw [inferMaps_fst]
  exact .foldl hg fun _ _ hg₁ r _ => edits_inferMap hC hg₁ r

/-! ## Strings -/

theorem edits_expandStrings (inference : EnumInference) (hg : g.Fit C) :
    Edits C g (expandStrings inference g) := by
  refine edits_mapNodes hg (fun n c hc => ?_) fun n hn => ?_
  · dsimp only [expandString] at hc
    split at hc
    · split at hc <;> cases hc
    · exact hc
  · dsimp only [expandString]
    split
    · split <;> exact ⟨hC.empty, hn.attributes⟩
    · exact hn

theorem edits_absorption {s : Absorption} (hg : s.graph.Fit C)
    (hmoved : s.redirection.Within s.graph.size) (u : NodeId) :
    Edits C s.graph (s.step u).graph ∧ (s.step u).redirection.Within (s.step u).graph.size := by
  unfold Absorption.step
  extract_lets g' members
  split
  · exact ⟨.refl, hmoved⟩
  next text htext =>
  have hmem : ∀ m ∈ members, m < s.graph.size := fun m hm =>
    hg.wellFormed.lt_of_mem_children (Kind.mem_children_of_mem_unionMembers hm)
  have htext := List.mem_of_find?_eq_some htext
  extract_lets kept
  split
  · exact ⟨.refl, hmoved⟩
  split
  · refine ⟨edits_addAttributes hC hg (hmem text htext) (hg.attributes u), ?_⟩
    exact (size_addAttributes ..).symm ▸ hmoved.insert (hmem text htext) u
  · have hu : u < s.graph.size := lt_size_of_kind_ne fun hk => by
      simp [g', hk, Kind.unionMembers] at htext
    refine ⟨.single (.modify hu (fun m hm => ?_) ⟨hC.empty, hg.attributes u⟩), ?_⟩
    · exact hmem m (List.mem_filter.1 (SortedSet.mem_ofList.1 hm)).1
    · exact (size_modify ..).symm ▸ hmoved

theorem steps_absorbStrings (hg : g.Fit C) : Steps C g g.absorbStrings := by
  have hfold := List.foldlRecOn
    (motive := fun s : Absorption => Edits C g s.graph ∧ s.redirection.Within s.graph.size)
    g.ids Absorption.step (b := ⟨g, ∅⟩) ⟨.refl, Redirection.within_empty _⟩ fun s hs u _ =>
      have hstep := edits_absorption hC (hs.1.fit hg) hs.2 u
      ⟨hs.1.trans hstep.1, hstep.2⟩
  exact hfold.1.forward hfold.2

theorem edits_representFormats (representation : Format → Representation) (hg : g.Fit C) :
    Edits C g (g.representFormats representation) := by
  refine edits_mapNodes hg (fun n c hc => ?_) fun n hn => ?_
  · unfold representFormat at hc
    split at hc
    · split at hc
      · exact hc
      · cases hc
      · cases hc
    · exact hc
  · unfold representFormat
    split
    · split
      · exact hn
      · exact ⟨hC.empty, hC.bounds hn.attributes rfl rfl⟩
      · exact ⟨hC.empty, hn.attributes⟩
    · exact hn

/-! ## Types without values -/

theorem edits_nothingToAny (hg : g.Fit C) : Edits C g g.nothingToAny := by
  refine edits_mapNodes hg (fun n c hc => ?_) fun n hn => ?_
  · dsimp only at hc
    split at hc
    · cases hc
    · exact hc
  · dsimp only
    split
    · exact ⟨hC.empty, hn.attributes⟩
    · exact hn

end

/-! ## Equal types -/

theorem steps_mergeDuplicates (C : NodeClass) (g : Graph) :
    Steps C g g.mergeDuplicates.1 := by
  refine .single (.forward fun r t ht => ?_)
  have hmem := (duplicates_of_mem_merges (SortedMap.mem_of_get?_ofList ht)).2
  exact List.mem_range.1 (List.mem_filter.1 (hmem.resolve_left List.not_mem_nil)).1

/-! ## Names -/

theorem edits_setNames (hC : C.Heritable) (hg : g.Fit C) (hr : r < g.size) (names : Option Names) :
    Edits C g (g.setAttributes r { g.attributes r with names }) :=
  edits_setAttributes hg hr (hC.bounds (hg.attributes r) rfl rfl)

theorem edits_flow (hC : C.Heritable) (keepNames : Bool) {n : Nat} (depth : Nat) (hg : g.Fit C)
    (hn : n ≤ g.size) (met : Met n) (layer : List NodeId) :
    Edits C g (flow keepNames depth g met layer) := by
  induction depth generalizing g met layer with
  | zero => exact .refl
  | succ depth ih =>
    -- names are proposed to nodes that were not met yet, which are places of nodes
    have hlt : ∀ e ∈ (joinProposals (g.layerProposals met layer)).toList, e.1 < g.size :=
      fun e he => by
        have hlacks := Met.lacks_iff.1 (lacks_of_mem_keys (List.mem_map_of_mem he))
        exact Nat.lt_of_lt_of_le hlacks.1 hn
    have hpropose : Edits C g
        ((joinProposals (g.layerProposals met layer)).toList.foldl (propose keepNames) g) :=
      .foldl hg fun _ h hg₁ e he =>
        edits_setNames hC hg₁ (Nat.lt_of_lt_of_le (hlt e he) h.size_le) _
    unfold flow
    split
    · exact .refl
    · exact hpropose.trans (ih (hpropose.fit hg) (Nat.le_trans hn hpropose.size_le) _ _)

theorem edits_spreadNames (hC : C.Heritable) (keepNames : Bool) (hg : g.Fit C) :
    Edits C g (g.spreadNames keepNames) := by
  have htop : Edits C g (g.topLevels.entries.foldl nameTopLevel g) :=
    .foldl hg fun g₁ h hg₁ e he => by
      have hlt := hg.wellFormed.2 e.2 (List.mem_map_of_mem he)
      exact nameTopLevel_cases (fun _ => .refl) fun _ =>
        edits_setNames hC hg₁ (Nat.lt_of_lt_of_le hlt h.size_le) _
  exact htop.trans (edits_flow hC keepNames _ (htop.fit hg) htop.size_le _ _)

theorem edits_assignName {s : Graph × List String} (hs : s.1.Fit C) (hr : r < s.1.size) :
    Edits C s.1 (assignName s r).1 :=
  assignName_cases .refl fun _ => .single (edit_of_kind_eq hs hr rfl (hs.attributes r))

theorem edits_gatherNames (hC : C.Heritable) (keepNames : Bool) (hg : g.Fit C) :
    Edits C g (g.gatherNames keepNames) := by
  have hspread := edits_spreadNames hC keepNames hg
  refine hspread.trans ?_
  have hg₁ := hspread.fit hg
  exact List.foldlRecOn
    (motive := fun s : Graph × List String => Edits C (g.spreadNames keepNames) s.1)
    (g.spreadNames keepNames).ids assignName .refl fun s h r hr =>
      h.trans (edits_assignName (h.fit hg₁) (Nat.lt_of_lt_of_le (List.mem_range.1 hr) h.size_le))

/-! ## Order -/

theorem perm_types_sortKeys (le : String → String → Bool) (ps : Properties) :
    (Properties.types (ps.sortKeys le)).Perm ps.types :=
  ((List.mergeSort_perm _ _).map Prod.snd).map Property.type

theorem perm_children_sortProperties (k : Kind) : k.sortProperties.children.Perm k.children := by
  cases k with
  | object ps additional => exact (perm_types_sortKeys _ ps).append_right additional.toList
  | record ps => exact perm_types_sortKeys _ ps
  | _ => exact .refl _

theorem edits_sortProperties (hC : C.Heritable) (hg : g.Fit C) :
    Edits C g g.sortProperties := by
  refine edits_mapNodes hg (fun n c hc => ?_) fun n hn => ?_
  · exact (perm_children_sortProperties n.kind).subset hc
  · refine ⟨?_, hn.attributes⟩
    have hps := hn.properties
    dsimp only
    generalize n.kind = k at hps ⊢
    cases k with
    | object ps additional => exact hC.sort (decide <| · ≤ ·) ps hps
    | record ps => exact hC.sort (decide <| · ≤ ·) ps hps
    | _ => exact hC.empty

/-! ## Required properties -/

/-- The nodes that were made are there. -/
structure Nullables.Within (s : Nullables) : Prop where
  null : ∀ r, s.null = some r → r < s.graph.size
  made : s.made.Within s.graph.size

namespace Nullables

variable {s : Nullables}

/-- Edits from one state to another, whose nodes are there. -/
structure Leads (s s' : Nullables) : Prop where
  edits : Edits .all s.graph s'.graph
  within : s'.Within

theorem Leads.refl (h : s.Within) : s.Leads s := ⟨.refl, h⟩

theorem Leads.trans {s₁ s₂ : Nullables} (h : s.Leads s₁) (h' : s₁.Leads s₂) : s.Leads s₂ :=
  ⟨h.edits.trans h'.edits, h'.within⟩

theorem Within.push (h : s.Within) {n : Node} (hc : ∀ c ∈ n.kind.children, c < s.graph.size) :
    s.Leads { s with graph := s.graph.push n } where
  edits := .single (.push hc (NodeClass.has_all n))
  within := by
    have hle : s.graph.size ≤ (s.graph.push n).size := size_push .. ▸ Nat.le_succ _
    exact ⟨fun r hr => Nat.lt_of_lt_of_le (h.null r hr) hle, h.made.mono hle⟩

theorem leads_nullNode (h : s.Within) :
    s.Leads s.nullNode.2 ∧ s.nullNode.1 < s.nullNode.2.graph.size := by
  unfold nullNode
  split
  · next r hr => exact ⟨.refl h, h.null r hr⟩
  · have hpush := h.push (n := .new .null) fun _ hc => absurd hc List.not_mem_nil
    have hlt : s.graph.size < (s.graph.push (.new .null)).size := by simp
    exact ⟨⟨hpush.edits, fun r hr => by cases hr; exact hlt, hpush.within.made⟩, hlt⟩

theorem leads_nullable (hg : s.graph.WellFormed) (h : s.Within) (hr : r < s.graph.size) :
    s.Leads (s.nullable r).2 ∧ (s.nullable r).1 < (s.nullable r).2.graph.size := by
  unfold nullable
  split
  · exact ⟨.refl h, hr⟩
  split
  · next n hn => exact ⟨.refl h, h.made r n hn⟩
  obtain ⟨hnull, hlt⟩ := leads_nullNode h
  generalize s.nullNode = p at hnull hlt ⊢
  obtain ⟨null, s₁⟩ := p
  dsimp -zeta only at hnull hlt ⊢
  extract_lets members n
  have hg₁ := (hnull.edits.fit hg.fit).wellFormed
  have hr₁ := Nat.lt_of_lt_of_le hr hnull.edits.size_le
  have hmembers : ∀ m ∈ members.insert null, m < s₁.graph.size := fun m hm => by
    rcases SortedSet.mem_insert.1 hm with rfl | hm
    · exact hlt
    · simp only [members] at hm
      split at hm
      · next ms hms => exact hg₁.lt_of_mem_children (r := r) (by rw [hms]; exact hm)
      · exact SortedSet.mem_singleton.1 hm ▸ hr₁
  have hpush := hnull.within.push (n := .new (.union (members.insert null))) hmembers
  have hn : n < (s₁.graph.push (.new (.union (members.insert null)))).size := by simp [n]
  exact ⟨hnull.trans ⟨hpush.edits, hpush.within.null, hpush.within.made.insert hn⟩, hn⟩

theorem leads_requireAll (rest : List (String × Property)) {done : Properties}
    (hg : s.graph.WellFormed) (h : s.Within) (hdone : s.Required done)
    (hrest : ∀ e ∈ rest, e.2.type < s.graph.size) :
    s.Leads (requireAll done rest s).2 ∧
      (requireAll done rest s).2.Required (requireAll done rest s).1 := by
  induction rest generalizing done s with
  | nil => exact ⟨.refl h, hdone⟩
  | cons e rest ih =>
    have he := hrest e List.mem_cons_self
    replace hrest : ∀ e ∈ rest, e.2.type < s.graph.size := fun e' h' =>
      hrest e' (List.mem_cons_of_mem e h')
    obtain ⟨name, type, optional⟩ := e
    cases optional with
    | false => exact ih hg h (hdone.insert he) hrest
    | true =>
      obtain ⟨hs, hlt⟩ := leads_nullable hg h he
      have hle := hs.edits.size_le
      obtain ⟨hs', hps⟩ := ih (hs.edits.fit hg.fit).wellFormed hs.within
        ((hdone.mono hle).insert hlt) fun e' h' => Nat.lt_of_lt_of_le (hrest e' h') hle
      exact ⟨hs.trans hs', hps⟩

/-- A node gets properties that are all required. -/
theorem leads_setKind (hg : s.graph.WellFormed) (h : s.Within) {ps : Properties}
    (hps : ∀ c ∈ ps.types, c ∈ (s.graph.kind r).children) (hr : r < s.graph.size)
    (kindOf : Properties → Kind)
    (hk : ∀ qs, ∀ c ∈ (kindOf qs).children, c ∈ qs.types ∨ c ∈ (s.graph.kind r).children) :
    s.Leads { (requireAll ∅ ps.entries s).2 with
      graph := (requireAll ∅ ps.entries s).2.graph.setKind r
        (kindOf (requireAll ∅ ps.entries s).1) } := by
  have hempty : s.Required ∅ := fun _ _ hp => by cases hp
  obtain ⟨hleads, hreq⟩ := leads_requireAll ps.entries hg h hempty
    fun e he => hg.lt_of_mem_children
      (hps _ (Properties.mem_types (OrderedMap.get?_eq_some_iff.2 he)))
  have hle := hleads.edits.size_le
  generalize requireAll ∅ ps.entries s = q at hleads hreq hle ⊢
  obtain ⟨qs, s'⟩ := q
  dsimp only at hleads hreq hle ⊢
  refine ⟨hleads.edits.tail (.modify (Nat.lt_of_lt_of_le hr hle) (fun c hc => ?_)
    (NodeClass.has_all _)), ?_, ?_⟩
  · rcases hk qs c hc with hc | hc
    · exact hreq.lt_of_mem_types hc
    · exact Nat.lt_of_lt_of_le (hg.lt_of_mem_children hc) hle
  · exact fun x hx => (size_modify ..).symm ▸ hleads.within.null x hx
  · exact hleads.within.made.mono (Nat.le_of_eq (size_modify ..).symm)

theorem leads_step (hg : s.graph.WellFormed) (h : s.Within) (r : NodeId) : s.Leads (s.step r) := by
  unfold step
  split
  · next ps hps =>
    refine leads_setKind hg h (fun c hc => ?_) (lt_size_of_isObjectLike (hps ▸ rfl)) .record
      fun _ _ hc => .inl hc
    rw [hps]
    exact hc
  · next ps additional hps =>
    refine leads_setKind hg h (fun c hc => ?_) (lt_size_of_isObjectLike (hps ▸ rfl))
      (.object · additional) fun qs c hc => ?_
    · rw [hps]
      exact List.mem_append_left _ hc
    · rw [hps]
      exact (List.mem_append.1 hc).imp_right (List.mem_append_right _)
  · exact .refl h

end Nullables

theorem edits_optionalToNullable (hg : g.WellFormed) :
    Edits .all g g.optionalToNullable := by
  have hstart : Nullables.Within ⟨g, none, ∅⟩ :=
    ⟨fun _ hr => (by cases hr), OrderedMap.within_empty _⟩
  have hfold := List.foldlRecOn (motive := Nullables.Leads ⟨g, none, ∅⟩) g.ids Nullables.step
    (.refl hstart) fun s hs r _ =>
      hs.trans (Nullables.leads_step (hs.edits.fit hg.fit).wellFormed hs.within r)
  exact hfold.edits

/-! ## Well-formed graphs -/

open NodeClass (heritable_all)

theorem kept_removeIndirections (hg : g.WellFormed) : g.Kept g.removeIndirections :=
  (steps_removeIndirections heritable_all hg.fit).kept hg

theorem kept_replaceObjects (leaveFull : Bool) (hg : g.WellFormed) :
    g.Kept (replaceObjects leaveFull g) :=
  (edits_replaceObjects heritable_all leaveFull hg.fit).steps.kept hg

theorem kept_combineClasses (same : Bool) (hg : g.WellFormed) : g.Kept (combineClasses same g) :=
  (steps_combineClasses heritable_all same hg.fit).kept hg

theorem kept_inferMaps (hg : g.WellFormed) : g.Kept g.inferMaps.1 :=
  (edits_inferMaps heritable_all hg.fit).steps.kept hg

theorem kept_expandStrings (inference : EnumInference) (hg : g.WellFormed) :
    g.Kept (expandStrings inference g) :=
  (edits_expandStrings heritable_all inference hg.fit).steps.kept hg

theorem kept_absorbStrings (hg : g.WellFormed) : g.Kept g.absorbStrings :=
  (steps_absorbStrings heritable_all hg.fit).kept hg

theorem kept_representFormats (representation : Format → Representation) (hg : g.WellFormed) :
    g.Kept (g.representFormats representation) :=
  (edits_representFormats heritable_all representation hg.fit).steps.kept hg

theorem kept_nothingToAny (hg : g.WellFormed) : g.Kept g.nothingToAny :=
  (edits_nothingToAny heritable_all hg.fit).steps.kept hg

theorem kept_mergeDuplicates (hg : g.WellFormed) : g.Kept g.mergeDuplicates.1 :=
  (steps_mergeDuplicates _ g).kept hg

theorem kept_sortProperties (hg : g.WellFormed) : g.Kept g.sortProperties :=
  (edits_sortProperties heritable_all hg.fit).steps.kept hg

end SchemaTypes.Graph

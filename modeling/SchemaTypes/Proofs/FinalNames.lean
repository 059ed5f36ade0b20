/-
  Final names.

  Top levels keep their own names.  Every other class, object type, enumeration and union in turn
  gets a name that is not used so far, and that is used from then on.

  * `chooseName_not_mem`: there always is such a name, since numbers do not run out;
  * `Graph.FirstName`: the first of the names under which a node is a top level;
  * `NamedSoFar`: what is known when some nodes had their turn, kept by each turn
    (`namedSoFar_assignName`);
  * `naming_tells_types_apart`: **final names are complete, and no two nodes share one**.
-/
import Mathlib.Data.List.Nodup
import Mathlib.Data.List.Perm.Subperm
import SchemaTypes.Proofs.Following
import SchemaTypes.Proofs.Naming

namespace SchemaTypes.Graph

variable {g : Graph} {r : NodeId} {name : String}

/-! ## Names that are not used -/

/-- Of one more number than there are used names, some gives a name that is not used. -/
theorem exists_numbered_not_mem (base : String) (used : List String) :
    ∃ name ∈ (List.range (used.length + 1)).map fun i => base ++ toString (i + 2),
      name ∉ used := by
  by_contra hall
  have hsub : ((List.range (used.length + 1)).map fun i => base ++ toString (i + 2)) ⊆ used :=
    fun name hname => Decidable.by_contra fun hnot => hall ⟨name, hname, hnot⟩
  have hnodup : ((List.range (used.length + 1)).map fun i => base ++ toString (i + 2)).Nodup := by
    refine List.Nodup.map (fun i j hij => ?_) List.nodup_range
    exact Nat.add_right_cancel (Json.toString_injective ((String.append_right_inj base).1 hij))
  have hle := (List.subperm_of_subset hnodup hsub).length_le
  rw [List.length_map, List.length_range] at hle
  omega

/-- **The name that is chosen is not used.** -/
theorem chooseName_not_mem (proposed used : List String) : chooseName proposed used ∉ used := by
  unfold chooseName
  split
  · next n hn => simpa using List.find?_some hn
  · extract_lets base numbered
    obtain ⟨n, hn, hnot⟩ := exists_numbered_not_mem base used
    cases hfind : numbered.find? fun n => n ∉ used with
    | some n => simpa using List.find?_some hfind
    | none => exact absurd (decide_eq_true hnot) (List.find?_eq_none.1 hfind n hn)

/-! ## Names of top levels -/

/-- The first of the names under which a node is a top level. -/
def FirstName (g : Graph) (r : NodeId) (name : String) : Prop :=
  ∃ before after, g.topLevels.entries = before ++ (name, r) :: after ∧ ∀ e ∈ before, e.2 ≠ r

theorem firstName_iff :
    g.FirstName r name ↔ g.topLevels.entries.find? (fun e => e.2 == r) = some (name, r) := by
  rw [List.find?_eq_some_iff_append, FirstName]
  simp

theorem FirstName.topLevel (h : g.FirstName r name) : g.topLevel? name = some r :=
  OrderedMap.get?_eq_some_iff.2 (List.mem_of_find?_eq_some (firstName_iff.1 h))

theorem FirstName.unique {name' : String} (h : g.FirstName r name) (h' : g.FirstName r name') :
    name' = name :=
  congrArg Prod.fst (Option.some.inj ((firstName_iff.1 h').symm.trans (firstName_iff.1 h)))

theorem mem_keys_of_topLevel (h : g.topLevel? name = some r) : name ∈ g.topLevels.keys :=
  OrderedMap.mem_keys_iff.2 ⟨r, h⟩

/-! ## Names given so far -/

theorem isNamed_iff {k : Kind} : isNamed k = true ↔ (∃ ps, k = .record ps) ∨
    (∃ ps a, k = .object ps a) ∨ (∃ cases, k = .enumeration cases) ∨ ∃ ms, k = .union ms := by
  cases k <;> simp [isNamed]

/-- Whether a node gets a name: a top level does, and a node of a kind that has names. -/
def NeedsName (g : Graph) (r : NodeId) : Prop :=
  r ∈ g.topLevels.values ∨ isNamed (g.kind r) = true

/-- What is known of the graph and the used names when the nodes `had` had their turn. -/
structure NamedSoFar (g : Graph) (had : List NodeId) (s : Graph × List String) : Prop where
  sameTypes : g.SameTypes s.1
  topLevels_used : ∀ name ∈ g.topLevels.keys, name ∈ s.2
  used : ∀ r name, (s.1.node r).name = some name → name ∈ s.2
  unique : ∀ r t name, (s.1.node r).name = some name → (s.1.node t).name = some name → r = t
  reserved : ∀ r t name, g.topLevel? name = some r → (s.1.node t).name = some name → t = r
  firstName : ∀ r ∈ had, ∀ name, g.FirstName r name → (s.1.node r).name = some name
  isSome_iff : ∀ r, (s.1.node r).name.isSome = true ↔ r ∈ had ∧ g.NeedsName r

namespace NamedSoFar

variable {had : List NodeId} {s : Graph × List String}

theorem name_eq_none (H : NamedSoFar g had s) (hr : r ∉ had) : (s.1.node r).name = none :=
  Option.not_isSome_iff_eq_none.1 fun h => hr ((H.isSome_iff r).1 h).1

/-- A node gets a name that no node has, and that is no other top level's. -/
theorem give (H : NamedSoFar g had s) (hr : r < g.size) (hneeds : g.NeedsName r)
    (hnew : ∀ t, (s.1.node t).name ≠ some name) (hreserved : ∀ t, g.topLevel? name = some t → r = t)
    (hfirst : ∀ name', g.FirstName r name' → name' = name) {used : List String}
    (hused : ∀ n ∈ s.2, n ∈ used) (hname : name ∈ used) :
    NamedSoFar g (r :: had) (s.1.modify r ({ · with name := some name }), used) := by
  have hgiven : ∀ t, ((s.1.modify r ({ · with name := some name })).node t).name =
      if r = t then some name else (s.1.node t).name := by
    intro t
    have hlt : r = t → t < s.1.size := fun e => e ▸ H.sameTypes.size_eq ▸ hr
    simp only [node_modify_eq, and_iff_left_of_imp hlt]
    split <;> rfl
  refine ⟨H.sameTypes.trans (.modify _ r fun _ => rfl), fun n hn => hused n (H.topLevels_used n hn),
    fun t n ht => ?_, fun t u n ht hu => ?_, fun t u n ht hu => ?_, fun t ht n hn => ?_,
    fun t => ?_⟩
  · rw [hgiven] at ht
    split at ht
    · exact Option.some.inj ht ▸ hname
    · exact hused n (H.used t n ht)
  · rw [hgiven] at ht hu
    split at ht <;> split at hu
    · next hrt hru => exact hrt.symm.trans hru
    · exact absurd (Option.some.inj ht ▸ hu) (hnew u)
    · exact absurd (Option.some.inj hu ▸ ht) (hnew t)
    · exact H.unique t u n ht hu
  · rw [hgiven] at hu
    split at hu
    · next hru =>
      obtain rfl := Option.some.inj hu
      exact hru.symm.trans (hreserved t ht)
    · exact H.reserved t u n ht hu
  · rw [hgiven]
    split
    · next hrt =>
      subst hrt
      rw [hfirst n hn]
    · next hrt =>
      exact H.firstName t ((List.mem_cons.1 ht).resolve_left (Ne.symm hrt)) n hn
  · rw [hgiven]
    split
    · next hrt =>
      subst hrt
      exact iff_of_true rfl ⟨List.mem_cons_self, hneeds⟩
    · next hrt =>
      rw [H.isSome_iff t, List.mem_cons, or_iff_right (Ne.symm hrt)]

/-- A node whose kind has no names is passed over. -/
theorem pass (H : NamedSoFar g had s) (hneeds : ¬g.NeedsName r) : NamedSoFar g (r :: had) s where
  sameTypes := H.sameTypes
  topLevels_used := H.topLevels_used
  used := H.used
  unique := H.unique
  reserved := H.reserved
  firstName t ht name hname := by
    have hvalue := OrderedMap.mem_values_of_get? hname.topLevel
    have hne : t ≠ r := fun e => hneeds (.inl (e ▸ hvalue))
    exact H.firstName t ((List.mem_cons.1 ht).resolve_left hne) name hname
  isSome_iff t := by
    rw [H.isSome_iff t, List.mem_cons]
    refine and_congr_left fun ht => (or_iff_right fun e => ?_).symm
    exact hneeds (e ▸ ht)

end NamedSoFar

/-- **One turn keeps what is known.** -/
theorem namedSoFar_assignName {had : List NodeId} {s : Graph × List String}
    (H : NamedSoFar g had s) (hr : r < g.size) (hhad : r ∉ had) :
    NamedSoFar g (r :: had) (assignName s r) := by
  obtain ⟨g₁, used⟩ := s
  dsimp only [assignName]
  split
  · next name r' hfind =>
    rw [H.sameTypes.topLevels_eq] at hfind
    obtain rfl : r' = r := by simpa using List.find?_some hfind
    have hfirst : g.FirstName r' name := firstName_iff.2 hfind
    refine H.give hr (.inl (OrderedMap.mem_values_of_get? hfirst.topLevel)) (fun t ht => ?_)
      (fun t ht => Option.some.inj (hfirst.topLevel.symm.trans ht))
      (fun name' h' => hfirst.unique h')
      (fun _ hn => hn) (H.topLevels_used name (mem_keys_of_topLevel hfirst.topLevel))
    rw [H.reserved r' t name hfirst.topLevel ht, H.name_eq_none hhad] at ht
    cases ht
  · next hfind =>
    rw [H.sameTypes.topLevels_eq] at hfind
    have hvalues : r ∉ g.topLevels.values := fun hr => by
      obtain ⟨e, he, rfl⟩ := List.mem_map.1 hr
      exact List.find?_eq_none.1 hfind e he (beq_self_eq_true e.2)
    rw [H.sameTypes.kind_eq]
    split
    · next hnamed =>
      have hnot := chooseName_not_mem (namesToTry (g₁.attributes r)) used
      refine H.give hr (.inr hnamed) (fun t ht => hnot (H.used t _ ht))
        (fun t ht => absurd (H.topLevels_used _ (mem_keys_of_topLevel ht)) hnot)
        (fun name' h' => absurd (OrderedMap.mem_values_of_get? h'.topLevel) hvalues)
        (fun _ hn => List.mem_cons_of_mem _ hn) List.mem_cons_self
    · next hnamed => exact H.pass fun hneeds => hneeds.elim hvalues hnamed

/-- **Turns one after the other keep what is known.** -/
theorem namedSoFar_foldl {had todo : List NodeId} {s : Graph × List String}
    (H : NamedSoFar g had s) (htodo : ∀ r ∈ todo, r < g.size) (hnodup : (todo ++ had).Nodup) :
    NamedSoFar g (todo.reverse ++ had) (todo.foldl assignName s) := by
  induction todo generalizing had s with
  | nil => exact H
  | cons r todo ih =>
    rw [List.cons_append, List.nodup_cons, List.mem_append, not_or] at hnodup
    have hstep := namedSoFar_assignName H (htodo r List.mem_cons_self) hnodup.1.2
    have hrest : (todo ++ r :: had).Nodup :=
      List.perm_middle.nodup_iff.2 (List.nodup_cons.2 ⟨by simpa using hnodup.1, hnodup.2⟩)
    rw [List.foldl_cons, List.reverse_cons, List.append_assoc]
    exact ih hstep (fun t ht => htodo t (List.mem_cons_of_mem r ht)) hrest

/-- What is known when all nodes had their turn. -/
theorem namedSoFar_assignNames (hnone : ∀ r, (g.node r).name = none) :
    NamedSoFar g g.ids.reverse (g.ids.foldl assignName (g, g.topLevels.keys)) := by
  have hstart : NamedSoFar g [] (g, g.topLevels.keys) :=
    { sameTypes := .refl g
      topLevels_used := fun _ h => h
      used := fun r name h => by cases (hnone r).symm.trans h
      unique := fun r _ name h => by cases (hnone r).symm.trans h
      reserved := fun _ t name _ h => by cases (hnone t).symm.trans h
      firstName := fun _ h => absurd h List.not_mem_nil
      isSome_iff := fun r => iff_of_false (by rw [hnone r]; exact Bool.false_ne_true)
        fun h => List.not_mem_nil h.1 }
  have hall := namedSoFar_foldl hstart (fun r hr => List.mem_range.1 hr)
    (by rw [List.append_nil]; exact List.nodup_range)
  rwa [List.append_nil] at hall

/-! ## Gathered names -/

theorem name_spreadNames (keepNames : Bool) (g : Graph) (r : NodeId) :
    ((g.spreadNames keepNames).node r).name = (g.node r).name := by
  refine spreadNames_induction (P := fun g₁ => (g₁.node r).name = (g.node r).name) keepNames
    (fun g₁ t a h _ => ?_) rfl
  rw [setAttributes, node_modify_eq]
  split
  · exact h
  · exact h

/-- **Final names are complete and unique.**  Where no node has a name before, names are gathered
    without any change to the types.  Each top level then has the first of its names; each class,
    object type, enumeration and union has a name, and no other node has one; different nodes have
    different names; and no node has a name of a top level that is another node, whether it is the
    first of its names or not. -/
theorem naming_tells_types_apart (keepNames : Bool) (hg : g.WellFormed)
    (hnone : ∀ n ∈ g.nodes, n.name = none) :
    g.SameTypes (g.gatherNames keepNames) ∧
    (∀ r ∈ g.topLevels.values, ∃ name, g.FirstName r name ∧
      ((g.gatherNames keepNames).node r).name = some name) ∧
    (∀ r < g.size, ((g.gatherNames keepNames).node r).name.isSome = true ↔
      r ∈ g.topLevels.values ∨ (∃ ps, g.kind r = .record ps) ∨ (∃ ps a, g.kind r = .object ps a) ∨
        (∃ cases, g.kind r = .enumeration cases) ∨ ∃ ms, g.kind r = .union ms) ∧
    (∀ r t name, ((g.gatherNames keepNames).node r).name = some name →
      ((g.gatherNames keepNames).node t).name = some name → r = t) ∧
    ∀ name r t, g.topLevel? name = some r →
      ((g.gatherNames keepNames).node t).name = some name → t = r := by
  have hsame := sameTypes_spreadNames keepNames g
  have hstart : ∀ r, ((g.spreadNames keepNames).node r).name = none := fun r => by
    rw [name_spreadNames]
    by_cases hr : r < g.size
    · exact hnone _ (node_mem hr)
    · rw [node_eq_default_of_le (Nat.not_lt.1 hr)]
      rfl
  have H := namedSoFar_assignNames hstart
  have hhad : ∀ r < g.size, r ∈ (g.spreadNames keepNames).ids.reverse := fun r hr =>
    List.mem_reverse.2 (List.mem_range.2 (hsame.size_eq ▸ hr))
  have htop : (g.spreadNames keepNames).topLevels = g.topLevels := hsame.topLevels_eq
  refine ⟨sameTypes_gatherNames keepNames g, fun r hr => ?_, fun r hr => ?_, H.unique,
    fun name r t ht => H.reserved r t name (by rwa [topLevel?, htop])⟩
  · obtain ⟨e, he, rfl⟩ := List.mem_map.1 hr
    have hfind : (g.topLevels.entries.find? fun e' => e'.2 == e.2).isSome := by
      rw [List.find?_isSome]
      exact ⟨e, he, beq_self_eq_true e.2⟩
    obtain ⟨⟨name, r⟩, hname⟩ := Option.isSome_iff_exists.1 hfind
    obtain rfl : r = e.2 := by simpa using List.find?_some hname
    refine ⟨name, firstName_iff.2 hname, H.firstName _ (hhad _ (hg.2 _ hr)) name ?_⟩
    rw [firstName_iff, htop]
    exact hname
  · rw [← isNamed_iff, ← hsame.kind_eq, ← htop]
    exact (H.isSome_iff r).trans (and_iff_right (hhad r hr))

/-- Crates of items.  The label of a crate has two names, of which one looks as if it were the
    second item's. -/
def crates : Graph where
  nodes := #[.new (.record (.ofList [("item", ⟨1, false⟩), ("inner", ⟨2, true⟩)])),
    .new (.record ∅), .new (.record (.ofList [("item", ⟨3, false⟩)])), .new (.record ∅)]
  topLevels := .ofList [("Crate", 0), ("item2", 0)]

/-- The inner item gets a third number, as the first two names are those of the outer one and of
    the crate. -/
theorem naming_tells_crates_apart :
    crates.WellFormed ∧ (∀ n ∈ crates.nodes, n.name = none) ∧
      ((crates.gatherNames true).node 3).name = some "item3" ∧
      ∀ t, ((crates.gatherNames true).node t).name ≠ some "item2" := by
  have hg : crates.WellFormed := ⟨by decide, by decide⟩
  have hnone : ∀ n ∈ crates.nodes, n.name = none := by decide
  have hcrate : ((crates.gatherNames true).node 0).name ≠ some "item2" := by decide +kernel
  refine ⟨hg, hnone, by decide +kernel, fun t ht => hcrate ?_⟩
  rwa [(naming_tells_types_apart true hg hnone).2.2.2.2 "item2" 0 t rfl ht] at ht

end SchemaTypes.Graph

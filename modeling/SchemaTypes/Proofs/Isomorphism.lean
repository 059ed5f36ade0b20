/-
  Collection as an isomorphism.

  Collection numbers anew what the top levels lead to, and changes nothing else:

  * `Preorder`: the row in which a depth-first search meets nodes, by its stack alone;
    `preorder_walk` says that each walk is such a row;
  * `Kind.Renumbered`: one kind is another with its nodes renumbered, its properties in the same
    order or sorted by name;
  * `Graph.Collected`: what it is for a graph to be the numbered reachable part of another;
  * `collected_collect`: **collection leads to that**, whether properties are sorted or not.
-/
import SchemaTypes.Proofs.Numbering
import SchemaTypes.Proofs.Rows

namespace SchemaTypes

/-! ## Depth-first rows -/

/-- What a depth-first search meets in turn that has met `met` and still has `todo` to visit: a node
    that was met is passed over; any other is met, and what it leads to comes before the rest. -/
inductive Preorder (next : NodeId → List NodeId) : List NodeId → List NodeId → List NodeId → Prop
  | done {met : List NodeId} : Preorder next met [] []
  | pass {met todo row : List NodeId} {r : NodeId} (h : r ∈ met)
      (hrow : Preorder next met todo row) : Preorder next met (r :: todo) row
  | meet {met todo row : List NodeId} {r : NodeId} (h : r ∉ met)
      (hrow : Preorder next (r :: met) (next r ++ todo) row) :
      Preorder next met (r :: todo) (r :: row)

section

variable {n : Nat} {next : NodeId → List NodeId} {todo row : List NodeId}

/-- There is one such row. -/
theorem Preorder.unique {met row' : List NodeId} (h : Preorder next met todo row)
    (h' : Preorder next met todo row') : row' = row := by
  induction h generalizing row' with
  | done =>
    cases h'
    rfl
  | pass hr _ ih =>
    cases h' with
    | pass _ h' => exact ih h'
    | meet hr' _ => exact absurd hr hr'
  | meet hr _ ih =>
    cases h' with
    | pass hr' _ => exact absurd hr' hr
    | meet _ h' => rw [ih h']

/-- Visits in turn meet what a search meets first, if each one does. -/
theorem exists_preorder_foldl_visit {d : Nat}
    (hv : ∀ (m : Met n) r todo row, n ≤ d + m.order.length → r < n →
      Preorder next (visit next d m r).order todo row →
        ∃ seen, (visit next d m r).order = seen.reverse ++ m.order ∧
          Preorder next m.order (r :: todo) (seen ++ row))
    (rs : List NodeId) (m : Met n) (hd : n ≤ d + m.order.length) (hrs : ∀ r ∈ rs, r < n)
    (h : Preorder next (rs.foldl (visit next d) m).order todo row) :
    ∃ seen, (rs.foldl (visit next d) m).order = seen.reverse ++ m.order ∧
      Preorder next m.order (rs ++ todo) (seen ++ row) := by
  induction rs generalizing m with
  | nil => exact ⟨[], rfl, h⟩
  | cons r rs ih =>
    have hstep : m.order <:+ (visit next d m r).order := suffix_visit ..
    have hlen := hstep.length_le
    obtain ⟨later, hlater, hrest⟩ :=
      ih (visit next d m r) (by omega) (fun s hs => hrs s (List.mem_cons_of_mem r hs)) h
    obtain ⟨seen, hseen, hall⟩ := hv m r _ _ hd (hrs r List.mem_cons_self) hrest
    refine ⟨seen ++ later, ?_, ?_⟩
    · rw [List.foldl_cons, hlater, hseen, List.reverse_append, List.append_assoc]
    · rw [List.append_assoc]
      exact hall

/-- A search passes over a node that nothing lacks. -/
theorem exists_preorder_of_not_lacks {m : Met n} {r : NodeId} (hr : r < n) (hl : ¬m.lacks r)
    (h : Preorder next m.order todo row) :
    ∃ seen, m.order = seen.reverse ++ m.order ∧
      Preorder next m.order (r :: todo) (seen ++ row) := by
  rw [Met.lacks_iff] at hl
  exact ⟨[], rfl, .pass (Decidable.by_contra fun hmem => hl ⟨hr, hmem⟩) h⟩

/-- **A visit meets what a search with a stack meets first.** -/
theorem exists_preorder_visit (hnext : ∀ r, ∀ c ∈ next r, c < n) (d : Nat) (m : Met n) (r : NodeId)
    (todo row : List NodeId) (hd : n ≤ d + m.order.length) (hr : r < n)
    (h : Preorder next (visit next d m r).order todo row) :
    ∃ seen, (visit next d m r).order = seen.reverse ++ m.order ∧
      Preorder next m.order (r :: todo) (seen ++ row) := by
  induction d generalizing m r todo row with
  | zero => exact exists_preorder_of_not_lacks hr (m.not_lacks_of_le (by omega) r) h
  | succ d ih =>
    simp only [visit] at h ⊢
    by_cases hl : m.lacks r
    · rw [dif_pos hl] at h ⊢
      obtain ⟨seen, hseen, hrow⟩ := exists_preorder_foldl_visit ih (next r) (m.add r hl)
        (by rw [Met.order_add, List.length_cons]; omega) (hnext r) h
      refine ⟨r :: seen, ?_, .meet (Met.lacks_iff.1 hl).2 hrow⟩
      rw [hseen, Met.order_add, List.reverse_cons, List.append_assoc]
      rfl
    · rw [dif_neg hl] at h ⊢
      exact exists_preorder_of_not_lacks hr hl h

end

/-! ## Renumbered kinds -/

/-- Properties with the same names that are as optional, and whose types are renumbered: in the same
    order, or sorted by name. -/
def Properties.Renumbered (sorted : Bool) (f : NodeId → NodeId) (ps qs : Properties) : Prop :=
  let renumbered := ps.entries.map fun e => (e.1, (⟨f e.2.type, e.2.optional⟩ : Property))
  if sorted then qs.keys.Pairwise (· < ·) ∧ qs.entries.Perm renumbered
  else qs.entries = renumbered

/-- A kind and the same kind with its nodes renumbered. -/
def Kind.Renumbered (sorted : Bool) (f : NodeId → NodeId) : Kind → Kind → Prop
  | array r, array s => s = f r
  | map r, map s => s = f r
  | object ps a, object qs b => ps.Renumbered sorted f qs ∧ b = a.map f
  | record ps, record qs => ps.Renumbered sorted f qs
  | union ms, union ns => ∀ s, s ∈ ns ↔ ∃ r ∈ ms, s = f r
  | intersection ms, intersection ns => ∀ s, s ∈ ns ↔ ∃ r ∈ ms, s = f r
  | k, l => k = l ∧ k.children = []

theorem Properties.pairwise_keys_sortKeys (ps : Properties) :
    (ps.sortKeys (decide <| · ≤ ·)).keys.Pairwise (· < ·) := by
  have hsorted : (ps.sortKeys (decide <| · ≤ ·)).keys.Pairwise (· ≤ ·) := by
    refine List.pairwise_map.2 ((List.pairwise_mergeSort (fun a b c hab hbc => ?_) (fun a b => ?_)
      ps.entries).imp fun h => of_decide_eq_true h)
    · exact decide_eq_true (String.le_trans (of_decide_eq_true hab) (of_decide_eq_true hbc))
    · simpa using String.le_total a.1 b.1
  exact hsorted.imp₂ (fun _ _ => Std.lt_of_le_of_ne) (ps.sortKeys (decide <| · ≤ ·)).nodup

/-- There is one way to put properties in the order of their names. -/
theorem Properties.sortKeys_eq {ps qs : Properties} (hsorted : qs.keys.Pairwise (· < ·))
    (hperm : qs.entries.Perm ps.entries) : ps.sortKeys (decide <| · ≤ ·) = qs := by
  have hqs : qs.entries.Pairwise (·.1 < ·.1) := List.pairwise_map.1 hsorted
  have hps : (ps.sortKeys (decide <| · ≤ ·)).entries.Pairwise (·.1 < ·.1) :=
    List.pairwise_map.1 ps.pairwise_keys_sortKeys
  have hentries := ((List.mergeSort_perm ps.entries _).trans hperm.symm).eq_of_pairwise
    (fun a b _ _ hab hba => absurd hab (String.lt_asymm hba)) hps hqs
  rw [OrderedMap.sortKeys, OrderedMap.mk.injEq]
  exact hentries

theorem Properties.renumbered_sortKeys (f : NodeId → NodeId) (ps : Properties) :
    ps.Renumbered true f ((ps.mapTypes f).sortKeys (decide <| · ≤ ·)) :=
  ⟨(ps.mapTypes f).pairwise_keys_sortKeys, List.mergeSort_perm _ _⟩

theorem Kind.renumbered_mapChildren (f : NodeId → NodeId) (k : Kind) :
    k.Renumbered false f (k.mapChildren f) := by
  cases k with
  | object ps a => exact ⟨rfl, rfl⟩
  | union ms => exact fun s => by simp [eq_comm]
  | intersection ms => exact fun s => by simp [eq_comm]
  | array r => rfl
  | map r => rfl
  | record ps => rfl
  | _ => exact ⟨rfl, rfl⟩

theorem Kind.renumbered_sortProperties (f : NodeId → NodeId) (k : Kind) :
    k.Renumbered true f (k.mapChildren f).sortProperties := by
  cases k with
  | object ps a => exact ⟨ps.renumbered_sortKeys f, rfl⟩
  | record ps => exact ps.renumbered_sortKeys f
  | union ms => exact (union ms).renumbered_mapChildren f
  | intersection ms => exact (intersection ms).renumbered_mapChildren f
  | array r => rfl
  | map r => rfl
  | _ => exact ⟨rfl, rfl⟩

namespace Graph

variable {g : Graph}

/-! ## Collected graphs -/

/-- **A walk meets nodes as a search with a stack does.** -/
theorem preorder_walk {next : Kind → List NodeId} {starts : List NodeId}
    (hnext : ∀ r, ∀ c ∈ next (g.kind r), c < g.size) (hstarts : ∀ r ∈ starts, r < g.size) :
    Preorder (fun r => next (g.kind r)) [] starts (g.walk next starts) := by
  obtain ⟨seen, hseen, hrow⟩ := exists_preorder_foldl_visit (exists_preorder_visit hnext g.size)
    starts (.nothing g.size) (Nat.le_add_right _ _) hstarts .done
  rw [List.append_nil, List.append_nil] at hrow
  have hwalk : g.walk next starts = seen := by
    rw [walk, hseen, List.reverse_append, List.reverse_reverse]
    rfl
  rw [hwalk]
  exact hrow

theorem preorder_reachable (hg : g.WellFormed) :
    Preorder (fun r => (g.kind r).children) [] g.topLevels.values g.reachable :=
  preorder_walk (fun _ _ hc => hg.lt_of_mem_children hc) hg.2

/-- `h` is what the top levels of `g` lead to, with the nodes numbered in the order of a
    depth-first row; `place` gives the new numbers.  All else is as it was, but for the order of
    properties where they are sorted. -/
structure Collected (sorted : Bool) (g h : Graph) (row : List NodeId) (place : NodeId → NodeId) :
    Prop where
  preorder_iff : ∀ row', Preorder (fun r => (g.kind r).children) [] g.topLevels.values row' ↔
    row' = row
  mem_iff : ∀ r, r ∈ row ↔ g.Reached r
  nodup : row.Nodup
  size_eq : h.size = row.length
  place_getElem : ∀ i (hi : i < row.length), place row[i] = i
  kind : ∀ r ∈ row, (g.kind r).Renumbered sorted place (h.kind (place r))
  attributes : ∀ r ∈ row, h.attributes (place r) = g.attributes r
  fixed : ∀ r ∈ row, (h.node (place r)).fixed = (g.node r).fixed
  name : ∀ r ∈ row, (h.node (place r)).name = (g.node r).name
  topLevels : h.topLevels.entries = g.topLevels.entries.map fun e => (e.1, place e.2)

theorem mem_reachable_iff (hg : g.WellFormed) {r : NodeId} : r ∈ g.reachable ↔ g.Reached r := by
  refine ⟨fun hr => ?_, fun hr => hr.mem_reachable hg⟩
  refine walk_induction (P := g.Reached) (fun r hr => ?_) (fun r c hr hc => .child hr hc) hr
  obtain ⟨e, he, rfl⟩ := List.mem_map.1 hr
  exact .topLevel (OrderedMap.get?_eq_some_iff.2 he)

/-- **Collection leads to the numbered reachable part**, with properties in the same order. -/
theorem collected_collect (hg : g.WellFormed) :
    Collected false g g.collect g.reachable g.place where
  preorder_iff row := ⟨(preorder_reachable hg).unique, fun h => h ▸ preorder_reachable hg⟩
  mem_iff r := mem_reachable_iff hg
  nodup := nodup_walk
  size_eq := size_collect
  place_getElem i hi := place_getElem hi
  kind r hr := by
    rw [kind_collect hr]
    exact Kind.renumbered_mapChildren g.place _
  attributes r hr := by rw [attributes, node_collect hr]; rfl
  fixed r hr := by rw [node_collect hr]
  name r hr := by rw [node_collect hr]
  topLevels := rfl

theorem node_sortProperties (g : Graph) (r : NodeId) :
    g.sortProperties.node r = { g.node r with kind := (g.kind r).sortProperties } := by
  simp only [node, kind, sortProperties, Array.getD_eq_getD_getElem?, Array.getElem?_map]
  cases g.nodes[r]? <;> rfl

theorem kind_sortProperties (g : Graph) (r : NodeId) :
    g.sortProperties.kind r = (g.kind r).sortProperties := by
  rw [kind, node_sortProperties]

/-- **So does collection with properties sorted afterwards**, which keeps the numbers. -/
theorem collected_sortProperties (hg : g.WellFormed) :
    Collected true g g.collect.sortProperties g.reachable g.place :=
  have h := collected_collect hg
  { preorder_iff := h.preorder_iff
    mem_iff := h.mem_iff
    nodup := h.nodup
    size_eq := (size_mapKinds g.collect Kind.sortProperties).trans h.size_eq
    place_getElem := h.place_getElem
    kind := fun r hr => by
      rw [kind_sortProperties, kind_collect hr]
      exact Kind.renumbered_sortProperties g.place _
    attributes := fun r hr => by
      rw [attributes, node_sortProperties]
      exact h.attributes r hr
    fixed := fun r hr => by
      rw [node_sortProperties]
      exact h.fixed r hr
    name := fun r hr => by
      rw [node_sortProperties]
      exact h.name r hr
    topLevels := h.topLevels }

/-- **Collection is an isomorphism onto what the top levels lead to**, numbered depth-first, and
    puts properties in the order of their names exactly if it is asked to. -/
theorem collection_renumbers (hg : g.WellFormed) (alphabetize : Bool) :
    ∃ row place, Collected alphabetize g
      (if alphabetize then g.collect.sortProperties else g.collect) row place := by
  cases alphabetize with
  | true => exact ⟨_, _, collected_sortProperties hg⟩
  | false => exact ⟨_, _, collected_collect hg⟩

/-- A pantry holds jars and crates, and crates hold what a pantry holds.  Nothing refers to the
    first node. -/
def pantry : Graph where
  nodes := #[.new .bool, .new (.record (.ofList [("label", ⟨3, false⟩), ("crate", ⟨2, true⟩)])),
    .new (.array 4), .new (.string none), .new (.union (.ofList [1, 2]))]
  topLevels := .ofList [("Pantry", 4), ("Jar", 1)]

/-- The label of a jar is met before its crate, and comes after it among the sorted properties. -/
theorem collection_renumbers_pantry :
    pantry.WellFormed ∧
      pantry.collect.sortProperties.kind 1 =
        .record (.ofList [("crate", ⟨3, true⟩), ("label", ⟨2, false⟩)]) ∧
      ∃ row place, Collected true pantry pantry.collect.sortProperties row place :=
  have hg : pantry.WellFormed := ⟨by decide, by decide⟩
  have hjar : pantry.collect.kind 1 =
      .record (.ofList [("label", ⟨2, false⟩), ("crate", ⟨3, true⟩)]) := by decide +kernel
  have hsorted : pantry.collect.sortProperties.kind 1 =
      .record (.ofList [("crate", ⟨3, true⟩), ("label", ⟨2, false⟩)]) := by
    rw [kind_sortProperties, hjar]
    exact congrArg Kind.record (Properties.sortKeys_eq (by decide +kernel) (by decide +kernel))
  ⟨hg, hsorted, collection_renumbers hg true⟩

end Graph

end SchemaTypes

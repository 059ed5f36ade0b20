/-
  Searches through intersections and unions.

  Resolution and flattening look through nested intersections and unions with a stack, in graphs
  where these may be nested in themselves and met many times.

  * `Through`: what is reached from a node by the members of intersections, or of unions, alone;
  * `Search`: a search that enters nodes of one kind and finds those of others; it has no bound,
    so that a derivation is a search that ends;
  * `Seek`: a search through unions that stops at the first intersection;
  * `search_iff`, `seek_iff`: each search ends, in one way, with what the walks of the passes give;
  * `searches_reach`: **the walks give exactly what can be reached, each node once.**
-/
import SchemaTypes.Graph.Flattening
import SchemaTypes.Graph.Resolution
import SchemaTypes.Proofs.Isomorphism

namespace SchemaTypes

/-- The members of kinds that satisfy `p`, where these are unions or intersections. -/
def Kind.membersWhere (p : Kind → Bool) (k : Kind) : List NodeId := if p k then k.children else []

theorem Kind.unionMembers_eq : unionMembers = membersWhere isUnion := by
  funext k
  cases k <;> rfl

theorem Kind.intersectionMembers_eq : intersectionMembers = membersWhere isIntersection := by
  funext k
  cases k <;> rfl

theorem Kind.mem_membersWhere_iff {p : Kind → Bool} {k : Kind} {c : NodeId} :
    c ∈ k.membersWhere p ↔ p k = true ∧ c ∈ k.children := by
  by_cases hp : p k = true <;> simp [membersWhere, hp]

namespace Graph

open Relation (ReflTransGen)

variable {g : Graph} {p : Kind → Bool} {r : NodeId} {met entered found todo row : List NodeId}

/-! ## Reachability -/

/-- One node leads to another, from member to member of nodes whose kinds satisfy `p`. -/
def Through (g : Graph) (p : Kind → Bool) : NodeId → NodeId → Prop :=
  ReflTransGen fun a b => p (g.kind a) = true ∧ b ∈ (g.kind a).children

/-- The row lists the nodes that satisfy a condition, each once. -/
structure Lists (row : List NodeId) (P : NodeId → Prop) : Prop where
  nodup : row.Nodup
  mem_iff : ∀ m, m ∈ row ↔ P m

theorem lt_of_mem_membersWhere (hg : g.WellFormed) (r : NodeId) :
    ∀ c ∈ (g.kind r).membersWhere p, c < g.size := fun _ hc =>
  hg.lt_of_mem_children (Kind.mem_membersWhere_iff.1 hc).2

/-- **A walk meets exactly what can be reached.** -/
theorem mem_walk_iff (hg : g.WellFormed) (hr : r < g.size) {m : NodeId} :
    m ∈ g.walk (Kind.membersWhere p) [r] ↔ g.Through p r m := by
  constructor
  · refine walk_induction (fun s hs => ?_) fun a b hra hb => ?_
    · rw [List.mem_singleton.1 hs]
      exact .refl
    · exact hra.tail (Kind.mem_membersWhere_iff.1 hb)
  · intro h
    induction h with
    | refl => exact mem_walk_of_mem_starts List.mem_cons_self hr
    | tail _ hab ih =>
      have hb := Kind.mem_membersWhere_iff.2 hab
      exact mem_walk_of_mem_next ih hb (lt_of_mem_membersWhere hg _ _ hb)

/-- What a walk meets, as far as it satisfies a condition. -/
theorem lists_filter_walk (hg : g.WellFormed) (hr : r < g.size) (q : NodeId → Bool) :
    Lists ((g.walk (Kind.membersWhere p) [r]).filter q) fun m => q m = true ∧ g.Through p r m where
  nodup := nodup_walk.filter q
  mem_iff m := by rw [List.mem_filter, mem_walk_iff hg hr, and_comm]

/-! ## Searches with a stack -/

/-- A search that has entered some nodes, has found others and still has `todo` to look at: what
    more it enters and finds.  A node whose kind satisfies `p` is entered once, and its members come
    before the rest; any other is found once. -/
inductive Search (g : Graph) (p : Kind → Bool) :
    List NodeId → List NodeId → List NodeId → List NodeId → List NodeId → Prop
  | done {entered found : List NodeId} : Search g p entered found [] [] []
  | again {entered found todo es fs : List NodeId} {m : NodeId} (hp : p (g.kind m) = true)
      (hm : m ∈ entered) (hrest : Search g p entered found todo es fs) :
      Search g p entered found (m :: todo) es fs
  | enter {entered found todo es fs : List NodeId} {m : NodeId} (hp : p (g.kind m) = true)
      (hm : m ∉ entered)
      (hrest : Search g p (m :: entered) found ((g.kind m).children ++ todo) es fs) :
      Search g p entered found (m :: todo) (m :: es) fs
  | known {entered found todo es fs : List NodeId} {m : NodeId} (hp : p (g.kind m) = false)
      (hm : m ∈ found) (hrest : Search g p entered found todo es fs) :
      Search g p entered found (m :: todo) es fs
  | find {entered found todo es fs : List NodeId} {m : NodeId} (hp : p (g.kind m) = false)
      (hm : m ∉ found) (hrest : Search g p entered (m :: found) todo es fs) :
      Search g p entered found (m :: todo) es (m :: fs)

/-- A search ends in one way only. -/
theorem Search.unique {es fs es' fs' : List NodeId} (h : g.Search p entered found todo es fs)
    (h' : g.Search p entered found todo es' fs') : es' = es ∧ fs' = fs := by
  induction h generalizing es' fs' with
  | done =>
    cases h'
    exact ⟨rfl, rfl⟩
  | again hp hm _ ih =>
    cases h' with
    | again _ _ h' => exact ih h'
    | enter _ hm' _ => exact absurd hm hm'
    | known hp' _ _ | find hp' _ _ => cases hp.symm.trans hp'
  | enter hp hm _ ih =>
    cases h' with
    | again _ hm' _ => exact absurd hm' hm
    | enter _ _ h' =>
      obtain ⟨rfl, rfl⟩ := ih h'
      exact ⟨rfl, rfl⟩
    | known hp' _ _ | find hp' _ _ => cases hp.symm.trans hp'
  | known hp hm _ ih =>
    cases h' with
    | again hp' _ _ | enter hp' _ _ => cases hp.symm.trans hp'
    | known _ _ h' => exact ih h'
    | find _ hm' _ => exact absurd hm hm'
  | find hp hm _ ih =>
    cases h' with
    | again hp' _ _ | enter hp' _ _ => cases hp.symm.trans hp'
    | known _ hm' _ => exact absurd hm' hm
    | find _ _ h' =>
      obtain ⟨rfl, rfl⟩ := ih h'
      exact ⟨rfl, rfl⟩

/-- A search that keeps what it has entered apart from what it has found meets the same nodes in the
    same order as one that does not. -/
theorem search_of_preorder
    (h : Preorder (fun m => (g.kind m).membersWhere p) met todo row)
    (hentered : ∀ m, p (g.kind m) = true → (m ∈ entered ↔ m ∈ met))
    (hfound : ∀ m, p (g.kind m) = false → (m ∈ found ↔ m ∈ met)) :
    g.Search p entered found todo (row.filter fun m => p (g.kind m))
      (row.filter fun m => !p (g.kind m)) := by
  induction h generalizing entered found with
  | done => exact .done
  | @pass met todo row m hm _ ih =>
    cases hp : p (g.kind m) with
    | true => exact .again hp ((hentered m hp).2 hm) (ih hentered hfound)
    | false => exact .known hp ((hfound m hp).2 hm) (ih hentered hfound)
  | @meet met todo row m hm _ ih =>
    have hcons : ∀ (l : List NodeId) (s : NodeId), (s ∈ l ↔ s ∈ met) →
        (s ∈ m :: l ↔ s ∈ m :: met) := fun l s hs => by rw [List.mem_cons, List.mem_cons, hs]
    have hother : ∀ (l : List NodeId) (s : NodeId), s ≠ m → (s ∈ l ↔ s ∈ met) →
        (s ∈ l ↔ s ∈ m :: met) := fun l s hne hs => by simp [hs, hne]
    cases hp : p (g.kind m) with
    | true =>
      have hmembers : (g.kind m).membersWhere p = (g.kind m).children := if_pos hp
      have hes : (m :: row).filter (fun m => p (g.kind m)) =
          m :: row.filter fun m => p (g.kind m) := List.filter_cons_of_pos hp
      have hfs : (m :: row).filter (fun m => !p (g.kind m)) = row.filter fun m => !p (g.kind m) :=
        List.filter_cons_of_neg (by simp [hp])
      rw [hes, hfs]
      refine .enter hp (fun hmem => hm ((hentered m hp).1 hmem)) (hmembers ▸ ih ?_ ?_)
      · exact fun s hs => hcons _ s (hentered s hs)
      · refine fun s hs => hother _ s ?_ (hfound s hs)
        rintro rfl
        cases hp.symm.trans hs
    | false =>
      have hmembers : (g.kind m).membersWhere p = [] := if_neg (by simp [hp])
      have hes : (m :: row).filter (fun m => p (g.kind m)) = row.filter fun m => p (g.kind m) :=
        List.filter_cons_of_neg (by simp [hp])
      have hfs : (m :: row).filter (fun m => !p (g.kind m)) =
          m :: row.filter fun m => !p (g.kind m) := List.filter_cons_of_pos (by simp [hp])
      rw [hmembers] at ih
      rw [hes, hfs]
      refine .find hp (fun hmem => hm ((hfound m hp).1 hmem)) (ih ?_ ?_)
      · refine fun s hs => hother _ s ?_ (hentered s hs)
        rintro rfl
        cases hp.symm.trans hs
      · exact fun s hs => hcons _ s (hfound s hs)

/-- **A search from a node ends**, in one way, with what a walk from there meets. -/
theorem search_iff (hg : g.WellFormed) (hr : r < g.size) (hp : p (g.kind r) = true)
    {es fs : List NodeId} : g.Search p [r] [] (g.kind r).children es fs ↔
      es = (g.walk (Kind.membersWhere p) [r]).filter (fun m => p (g.kind m) && m != r) ∧
        fs = (g.walk (Kind.membersWhere p) [r]).filter fun m => !p (g.kind m) := by
  have hrow : Preorder (fun m => (g.kind m).membersWhere p) [] [r]
      (g.walk (Kind.membersWhere p) [r]) :=
    preorder_walk (lt_of_mem_membersWhere hg) fun s hs => List.mem_singleton.1 hs ▸ hr
  have hnodup : (g.walk (Kind.membersWhere p) [r]).Nodup := nodup_walk
  generalize g.walk (Kind.membersWhere p) [r] = row at hrow hnodup ⊢
  cases hrow with
  | pass hmem => cases hmem
  | @meet _ _ row _ _ hrow =>
    obtain ⟨hnotin, -⟩ := List.nodup_cons.1 hnodup
    have hmembers : (g.kind r).membersWhere p = (g.kind r).children := if_pos hp
    rw [hmembers, List.append_nil] at hrow
    have hsearch : g.Search p [r] [] (g.kind r).children (row.filter fun m => p (g.kind m))
        (row.filter fun m => !p (g.kind m)) := by
      refine search_of_preorder hrow (fun _ _ => Iff.rfl) fun m hm => ?_
      refine iff_of_false List.not_mem_nil fun hmr => ?_
      rw [List.mem_singleton.1 hmr, hp] at hm
      cases hm
    have hentered : (r :: row).filter (fun m => p (g.kind m) && m != r) =
        row.filter fun m => p (g.kind m) := by
      refine (List.filter_cons_of_neg (by simp)).trans ?_
      refine List.filter_congr fun m hm => ?_
      have hne : m ≠ r := fun heq => hnotin (heq ▸ hm)
      simp [hne]
    have hfound : (r :: row).filter (fun m => !p (g.kind m)) = row.filter fun m => !p (g.kind m) :=
      List.filter_cons_of_neg (by simp [hp])
    rw [hentered, hfound]
    refine ⟨fun h => h.unique hsearch |>.imp Eq.symm Eq.symm, ?_⟩
    rintro ⟨rfl, rfl⟩
    exact hsearch

/-! ## Seeking an intersection -/

/-- A search through unions that has met some nodes and still has `todo` to look at: whether it
    comes to an intersection, where it stops. -/
inductive Seek (g : Graph) : List NodeId → List NodeId → Bool → Prop
  | done {met : List NodeId} : Seek g met [] false
  | pass {met todo : List NodeId} {m : NodeId} {b : Bool} (hm : m ∈ met)
      (hrest : Seek g met todo b) : Seek g met (m :: todo) b
  | stop {met todo : List NodeId} {m : NodeId} (hm : m ∉ met)
      (hk : (g.kind m).isIntersection = true) : Seek g met (m :: todo) true
  | meet {met todo : List NodeId} {m : NodeId} {b : Bool} (hm : m ∉ met)
      (hk : (g.kind m).isIntersection = false)
      (hrest : Seek g (m :: met) ((g.kind m).unionMembers ++ todo) b) : Seek g met (m :: todo) b

theorem Seek.unique {b b' : Bool} (h : g.Seek met todo b) (h' : g.Seek met todo b') : b' = b := by
  induction h with
  | done =>
    cases h'
    rfl
  | pass hm _ ih =>
    cases h' with
    | pass _ h' => exact ih h'
    | stop hm' _ | meet hm' _ _ => exact absurd hm hm'
  | stop hm hk =>
    cases h' with
    | pass hm' _ => exact absurd hm' hm
    | stop _ _ => rfl
    | meet _ hk' _ => cases hk.symm.trans hk'
  | meet hm hk _ ih =>
    cases h' with
    | pass hm' _ => exact absurd hm' hm
    | stop _ hk' => cases hk.symm.trans hk'
    | meet _ _ h' => exact ih h'

/-- Stopping at the first intersection makes no difference. -/
theorem seek_of_preorder (h : Preorder (fun m => (g.kind m).unionMembers) met todo row) :
    g.Seek met todo (row.any fun m => (g.kind m).isIntersection) := by
  induction h with
  | done => exact .done
  | pass hm _ ih => exact .pass hm ih
  | @meet met todo row m hm _ ih =>
    rw [List.any_cons]
    cases hk : (g.kind m).isIntersection with
    | true => exact .stop hm hk
    | false => exact .meet hm hk ih

/-- **Seeking an intersection ends**, with what is known of the walk. -/
theorem seek_iff (hg : g.WellFormed) (hr : r < g.size) {b : Bool} :
    g.Seek [] [r] b ↔ b = g.awaitsIntersection r := by
  have hseek : g.Seek [] [r] (g.awaitsIntersection r) :=
    seek_of_preorder <| preorder_walk
      (fun _ _ hc => hg.lt_of_mem_children (Kind.mem_children_of_mem_unionMembers hc))
      fun s hs => List.mem_singleton.1 hs ▸ hr
  exact ⟨fun h => hseek.unique h, fun h => h ▸ hseek⟩

/-! ## The walks of the passes -/

/-- **The walks of resolution and flattening give exactly what can be reached**, each node once.
    The expanded members of an intersection are what intersections lead to and is none; the leaves
    of a union are what unions lead to and is none, and the other unions on the way are nested in
    it; and a node awaits an intersection if it is one, or unions lead to one.  Searches for these
    with a stack alone end in every graph, also where nodes are nested in themselves. -/
theorem searches_reach (hg : g.WellFormed) :
    (∀ r, (g.kind r).isIntersection = true →
      Lists (g.expandedMembers r)
        (fun m => (g.kind m).isIntersection = false ∧ g.Through Kind.isIntersection r m) ∧
      ∃ nested, ∀ es fs, g.Search Kind.isIntersection [r] [] (g.kind r).children es fs ↔
        es = nested ∧ fs = g.expandedMembers r) ∧
    (∀ u, (g.kind u).isUnion = true →
      Lists (g.leaves u)
        (fun m => (g.kind m).isUnion = false ∧ g.Through Kind.isUnion u m) ∧
      Lists (g.nestedUnions u)
        (fun m => ((g.kind m).isUnion = true ∧ m ≠ u) ∧ g.Through Kind.isUnion u m) ∧
      ∀ es fs, g.Search Kind.isUnion [u] [] (g.kind u).children es fs ↔
        es = g.nestedUnions u ∧ fs = g.leaves u) ∧
    ∀ r < g.size,
      (g.awaitsIntersection r = true ↔
        ∃ m, g.Through Kind.isUnion r m ∧ (g.kind m).isIntersection = true) ∧
      ∀ b, g.Seek [] [r] b ↔ b = g.awaitsIntersection r := by
  refine ⟨fun r hr => ?_, fun u hu => ?_, fun r hr => ⟨?_, fun b => seek_iff hg hr⟩⟩
  · have hlt := lt_size_of_isIntersection hr
    rw [expandedMembers, Kind.intersectionMembers_eq]
    exact ⟨by simpa using lists_filter_walk hg hlt fun m => !(g.kind m).isIntersection,
      _, fun es fs => search_iff hg hlt hr⟩
  · have hlt := lt_size_of_isUnion hu
    rw [leaves, nestedUnions, unionWalk, Kind.unionMembers_eq]
    refine ⟨?_, ?_, fun es fs => search_iff hg hlt hu⟩
    · simpa using lists_filter_walk hg hlt fun m => !(g.kind m).isUnion
    · simpa using lists_filter_walk hg hlt fun m => (g.kind m).isUnion && m != u
  · rw [awaitsIntersection, Kind.unionMembers_eq, List.any_eq_true]
    exact exists_congr fun m => and_congr_left' (mem_walk_iff hg hr)

/-- Two unions and two intersections are nested in each other and in themselves. -/
def burrow : Graph where
  nodes := #[.new .bool, .new .null, .new (.union (.ofList [0, 3])),
    .new (.union (.ofList [1, 2, 3])), .new (.intersection (.ofList [2, 5])),
    .new (.intersection (.ofList [0, 4, 5])), .new (.union (.ofList [3, 4]))]
  topLevels := .ofList [("Burrow", 6)]

/-- The searches end although they come back to where they start. -/
theorem searches_reach_burrow :
    burrow.WellFormed ∧ burrow.expandedMembers 4 = [2, 0] ∧
      (∃ nested, burrow.Search Kind.isIntersection [4] [] [2, 5] nested [2, 0]) ∧
      burrow.leaves 2 = [0, 1] ∧ burrow.nestedUnions 2 = [3] ∧
      burrow.Search Kind.isUnion [2] [] [0, 3] [3] [0, 1] ∧
      burrow.Seek [] [2] false ∧ burrow.Seek [] [6] true ∧
      ∃ m, burrow.Through Kind.isUnion 6 m ∧ (burrow.kind m).isIntersection = true := by
  have hg : burrow.WellFormed := ⟨by decide, by decide⟩
  have hmembers : burrow.expandedMembers 4 = [2, 0] := by decide +kernel
  have hleaves : burrow.leaves 2 = [0, 1] := by decide +kernel
  have hnested : burrow.nestedUnions 2 = [3] := by decide +kernel
  have hawaits : burrow.awaitsIntersection 6 = true := by decide +kernel
  obtain ⟨hexpanded, hflat, hseek⟩ := searches_reach hg
  obtain ⟨nested, hsearch⟩ := (hexpanded 4 rfl).2
  exact ⟨hg, hmembers, ⟨nested, (hsearch _ _).2 ⟨rfl, hmembers.symm⟩⟩, hleaves, hnested,
    ((hflat 2 rfl).2.2 _ _).2 ⟨hnested.symm, hleaves.symm⟩,
    ((hseek 2 (by decide)).2 _).2 (by decide +kernel), ((hseek 6 (by decide)).2 _).2 hawaits.symm,
    (hseek 6 (by decide)).1.1 hawaits⟩

end Graph

end SchemaTypes

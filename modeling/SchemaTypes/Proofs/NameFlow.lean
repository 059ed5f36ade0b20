/-
  Names flow once.

  Names flow in layers, and a layer proposes to nodes that no layer met before.  So what is proposed
  to a node depends on nodes that are settled, and a second run proposes the same again, which
  changes nothing.

  * `Names.add_self`, `acceptNames_acceptNames`: names that are proposed twice count once;
  * `node_flow`: nodes that were met stay as they are;
  * `flow_again`, `spreadNames_again`: where names have flowed, they do not flow again;
  * `assignNames_again`: nor are other final names chosen;
  * `gathering_settles`: **gathering names twice is gathering them once**, and leaves given names
    alone.
-/
import SchemaTypes.Proofs.Combination
import SchemaTypes.Proofs.Naming
import SchemaTypes.Proofs.Numbering

namespace SchemaTypes

/-! ## Numbers of names -/

theorem SortedSet.union_self (s : SortedSet String) : s ∪ s = s :=
  SortedSet.ext fun a => by rw [mem_union, or_self]

namespace Names

variable {a b : Names}

theorem bounded_make (ns as : SortedSet String) (i : Bool) : (make ns as i).Bounded := by
  rw [make]
  split
  · trivial
  · next h => exact Nat.not_lt.1 h

theorem bounded_single (name : String) (i : Bool) : (single name i).Bounded := bounded_make ..

theorem Bounded.makeInferred (h : a.Bounded) : a.makeInferred.Bounded := by
  cases a with
  | regular ns as i => exact h
  | tooMany i => trivial

theorem bounded_singularize (a : Names) : a.singularize.Bounded := by
  cases a with
  | regular ns as i => exact bounded_make ..
  | tooMany i => trivial

theorem bounded_unite (a b : Names) : (a.unite b).Bounded := by
  cases a with
  | regular ns as i =>
    cases b with
    | regular ms bs j => exact bounded_make ..
    | tooMany j => trivial
  | tooMany i => trivial

theorem Bounded.add (ha : a.Bounded) (hb : b.Bounded) : (a.add b).Bounded := by
  rw [add_eq]
  split
  · exact bounded_unite a b
  · split
    · exact hb
    · exact ha

/-- Names that were not given up count once. -/
theorem add_self (h : a.Bounded) : a.add a = a := by
  rw [add_of_same rfl]
  cases a with
  | regular ns as i =>
    rw [unite, SortedSet.union_self, SortedSet.union_self, make, if_neg (Nat.not_lt.2 h)]
  | tooMany i => rfl

end Names

namespace Graph

variable {g h : Graph} {keepNames : Bool}

/-- All names of nodes are such as operations on names give. -/
def NamesBounded (g : Graph) : Prop :=
  ∀ r names, (g.attributes r).names = some names → names.Bounded

/-! ## Attributes of nodes -/

theorem modify_eq_self {r : NodeId} {f : Node → Node} (hf : f (g.node r) = g.node r) :
    g.modify r f = g := by
  refine eq_of_node_eq (size_modify ..) (fun t ht => ?_) rfl
  rw [size_modify] at ht
  rw [node_modify _ _ _ _ ht]
  split
  · next hrt => rw [← hrt, hf]
  · rfl

theorem namesBounded_setAttributes (hg : g.NamesBounded) {r : NodeId} {a : Attributes}
    (ha : ∀ names, a.names = some names → names.Bounded) : (g.setAttributes r a).NamesBounded := by
  intro t names ht
  rw [attributes, setAttributes, node_modify_eq] at ht
  split at ht
  · exact ha names ht
  · exact hg t names ht

/-! ## Proposals -/

theorem bounded_proposals {k : Kind} {names : Option Names}
    (hn : ∀ ns, names = some ns → ns.Bounded) : ∀ p ∈ proposals k names, p.2.Bounded := by
  have hprops : ∀ (ps : Properties),
      ∀ p ∈ ps.entries.map fun e => (e.2.type, Names.single e.1 true), p.2.Bounded := by
    intro ps p hp
    obtain ⟨e, -, rfl⟩ := List.mem_map.1 hp
    exact Names.bounded_single ..
  intro p hp
  unfold proposals at hp
  extract_lets ofProperties at hp
  split at hp
  · exact hprops _ p hp
  · exact hprops _ p hp
  · exact hprops _ p hp
  · rcases List.mem_append.1 hp with hp | hp
    · exact hprops _ p hp
    · obtain rfl := List.mem_singleton.1 hp
      exact Names.bounded_singularize _
  · obtain rfl := List.mem_singleton.1 hp
    exact Names.bounded_singularize _
  · obtain rfl := List.mem_singleton.1 hp
    exact Names.bounded_singularize _
  · obtain ⟨m, -, rfl⟩ := List.mem_map.1 hp
    exact (hn _ rfl).makeInferred
  · obtain ⟨m, -, rfl⟩ := List.mem_map.1 hp
    exact (hn _ rfl).makeInferred
  · cases hp

theorem bounded_layerProposals {n : Nat} (hg : g.NamesBounded) (met : Met n)
    (layer : List NodeId) : ∀ p ∈ g.layerProposals met layer, p.2.Bounded := by
  intro p hp
  obtain ⟨r, -, hp⟩ := List.mem_flatMap.1 (List.mem_filter.1 hp).1
  exact bounded_proposals (fun ns => hg r ns) p hp

/-- What holds of all proposals, and of names added to such, holds of the joined ones. -/
theorem joinProposals_induction {P : Names → Prop} (hadd : ∀ a b, P a → P b → P (a.add b))
    {l : List (NodeId × Names)} (hl : ∀ p ∈ l, P p.2) :
    ∀ e ∈ (joinProposals l).toList, P e.2 := by
  have hinsert : ∀ (k : NodeId) (v : Names) (es : List (NodeId × Names)), P v →
      (∀ e ∈ es, P e.2) → ∀ e ∈ SortedMap.insertEntry Names.add k v es, P e.2 := by
    intro k v es hv hes
    induction es with
    | nil => simpa [SortedMap.insertEntry] using hv
    | cons e es ih =>
      obtain ⟨k', old⟩ := e
      rw [List.forall_mem_cons] at hes
      rw [SortedMap.insertEntry]
      split
      · exact List.forall_mem_cons.2 ⟨hv, List.forall_mem_cons.2 hes⟩
      split
      · exact List.forall_mem_cons.2 ⟨hes.1, ih hes.2⟩
      · exact List.forall_mem_cons.2 ⟨hadd old v hes.1 hv, hes.2⟩
  refine List.foldlRecOn (motive := fun m : SortedMap NodeId Names => ∀ e ∈ m.toList, P e.2) l _
    (fun _ he => absurd he List.not_mem_nil) fun m hm p hp => ?_
  exact hinsert p.1 p.2 m.toList (hl p hp) hm

theorem bounded_acceptNames {proposed : Names} (hp : proposed.Bounded) {names : Option Names}
    (hn : ∀ ns, names = some ns → ns.Bounded) : (acceptNames keepNames proposed names).Bounded := by
  cases names with
  | none => exact hp
  | some names =>
    rw [acceptNames]
    split
    · exact (hn names rfl).add hp
    · exact hn names rfl

/-- **Names that are proposed twice count once.** -/
theorem acceptNames_acceptNames {proposed : Names} (hp : proposed.Bounded) (names : Option Names) :
    acceptNames keepNames proposed (some (acceptNames keepNames proposed names)) =
      acceptNames keepNames proposed names := by
  have hagain : ∀ a : Names, (a.add proposed).add proposed = a.add proposed := fun a => by
    rw [Names.add_assoc, Names.add_self hp]
  cases names with
  | none =>
    simp only [acceptNames, Names.add_self hp, ite_self]
  | some names =>
    simp only [acceptNames]
    split
    · rw [hagain, ite_self]
    · rfl

/-! ## Layers -/

/-- Proposals in turn leave the other nodes alone. -/
theorem node_foldl_propose {l : List (NodeId × Names)} {t : NodeId} (ht : t ∉ l.map Prod.fst) :
    (l.foldl (propose keepNames) g).node t = g.node t := by
  induction l generalizing g with
  | nil => rfl
  | cons p l ih =>
    rw [List.map_cons, List.mem_cons, not_or] at ht
    rw [List.foldl_cons, ih ht.2, propose, setAttributes, node_modify_eq,
      if_neg fun h => ht.1 h.1.symm]

theorem sameTypes_foldl_propose (g : Graph) (l : List (NodeId × Names)) :
    g.SameTypes (l.foldl (propose keepNames) g) :=
  List.foldlRecOn (motive := g.SameTypes) l _ (.refl g) fun g₁ h p _ =>
    h.trans (.modify g₁ p.1 fun _ => rfl)

theorem namesBounded_foldl_propose {l : List (NodeId × Names)} (hg : g.NamesBounded)
    (hl : ∀ p ∈ l, p.2.Bounded) : (l.foldl (propose keepNames) g).NamesBounded := by
  refine List.foldlRecOn (motive := NamesBounded) l _ hg fun g₁ h p hp => ?_
  refine namesBounded_setAttributes h fun names hnames => ?_
  obtain rfl := Option.some.inj hnames
  exact bounded_acceptNames (hl p hp) (h p.1)

/-- Each node gets what is proposed to it. -/
theorem attributes_foldl_propose {l : List (NodeId × Names)} (hl : (l.map Prod.fst).Nodup)
    {p : NodeId × Names} (hp : p ∈ l) (hlt : p.1 < g.size) :
    (l.foldl (propose keepNames) g).attributes p.1 = { g.attributes p.1 with
      names := some (acceptNames keepNames p.2 (g.attributes p.1).names) } := by
  induction l generalizing g with
  | nil => cases hp
  | cons q l ih =>
    rw [List.map_cons, List.nodup_cons] at hl
    rw [List.foldl_cons]
    rcases List.mem_cons.1 hp with rfl | hp
    · rw [attributes, node_foldl_propose hl.1, propose, setAttributes, node_modify_eq,
        if_pos ⟨rfl, hlt⟩]
    · have hne : q.1 ≠ p.1 := fun e => hl.1 (e ▸ List.mem_map_of_mem hp)
      have hstep : (propose keepNames g q).attributes p.1 = g.attributes p.1 := by
        rw [attributes, propose, setAttributes, node_modify_eq, if_neg fun h => hne h.1]
        rfl
      rw [ih hl.2 hp ((size_modify ..).symm ▸ hlt), hstep]

/-- A proposal that was accepted before changes nothing. -/
theorem propose_eq_self {p : NodeId × Names} (hp : p.2.Bounded) {names : Option Names}
    (hh : (h.attributes p.1).names = some (acceptNames keepNames p.2 names)) :
    propose keepNames h p = h := by
  refine modify_eq_self ?_
  have hagain : acceptNames keepNames p.2 (h.attributes p.1).names =
      acceptNames keepNames p.2 names := by
    rw [hh, acceptNames_acceptNames hp]
  rw [hagain, ← hh]
  rfl

section

variable {n : Nat}

theorem not_lacks_insert {met : Met n} {r t : NodeId} (ht : r = t ∨ ¬met.lacks r) :
    ¬(met.insert t).lacks r := by
  unfold Met.insert
  split
  · next hlacks =>
    rw [Met.lacks_iff, Met.order_add, List.mem_cons]
    rw [Met.lacks_iff] at ht
    tauto
  · next hlacks => exact ht.elim (fun e => e ▸ hlacks) id

theorem not_lacks_foldl_insert {met : Met n} {rs : List NodeId} {r : NodeId}
    (hr : r ∈ rs ∨ ¬met.lacks r) : ¬(rs.foldl Met.insert met).lacks r := by
  induction rs generalizing met with
  | nil => exact hr.resolve_left List.not_mem_nil
  | cons t rs ih =>
    refine ih ?_
    rcases hr with hr | hr
    · exact (List.mem_cons.1 hr).symm.imp_right fun e => not_lacks_insert (.inl e)
    · exact .inr (not_lacks_insert (.inr hr))

/-- Names flow to the nodes that a layer proposes them to, if any, and on from there. -/
theorem flow_succ (depth : Nat) (met : Met n) (layer : List NodeId)
    {proposed : SortedMap NodeId Names}
    (hproposed : joinProposals (g.layerProposals met layer) = proposed) :
    flow keepNames (depth + 1) g met layer = flow keepNames depth
      (proposed.toList.foldl (propose keepNames) g) (proposed.keys.foldl Met.insert met)
      proposed.keys := by
  subst hproposed
  rw [flow]
  split
  · next hnone =>
    rw [hnone]
    cases depth <;> rfl
  · rfl

/-- **Nodes that were met stay as they are.** -/
theorem node_flow (depth : Nat) {met : Met n} {layer : List NodeId} {r : NodeId}
    (hr : ¬met.lacks r) : (flow keepNames depth g met layer).node r = g.node r := by
  induction depth generalizing g met layer with
  | zero => rfl
  | succ depth ih =>
    rw [flow_succ depth met layer rfl, ih (not_lacks_foldl_insert (.inr hr)),
      node_foldl_propose fun hmem => hr (lacks_of_mem_keys hmem)]

theorem layerProposals_congr {met : Met n} {layer : List NodeId}
    (hkind : ∀ r ∈ layer, h.kind r = g.kind r)
    (hattr : ∀ r ∈ layer, h.attributes r = g.attributes r) :
    h.layerProposals met layer = g.layerProposals met layer := by
  unfold layerProposals
  congr 1
  exact List.flatMap_congr fun r hr => by rw [hkind r hr, hattr r hr]

/-- **Where names have flowed, they do not flow again.**  By induction on the layers: a layer was
    settled when it was met, so that it proposes what it did then. -/
theorem flow_again (depth : Nat) (hb : g.NamesBounded) (hn : n ≤ g.size) {met : Met n}
    {layer : List NodeId} (hlayer : ∀ r ∈ layer, ¬met.lacks r) (hkind : ∀ r, h.kind r = g.kind r)
    (hattr : ∀ r, h.attributes r = (flow keepNames depth g met layer).attributes r) :
    flow keepNames depth h met layer = h := by
  induction depth generalizing g met layer with
  | zero => rfl
  | succ depth ih =>
    have hsettled : ∀ r ∈ layer, h.attributes r = g.attributes r := fun r hr => by
      rw [hattr, attributes, node_flow _ (hlayer r hr)]
      rfl
    have hproposals : h.layerProposals met layer = g.layerProposals met layer :=
      layerProposals_congr (fun r _ => hkind r) hsettled
    have hbounded := joinProposals_induction (fun _ _ => Names.Bounded.add)
      (bounded_layerProposals hb met layer)
    have hlacks : ∀ r ∈ (joinProposals (g.layerProposals met layer)).keys, met.lacks r :=
      fun _ => lacks_of_mem_keys
    -- One name for the proposals of both runs: they are equal, but not by computation.
    obtain ⟨proposed, hproposed⟩ : ∃ m, joinProposals (g.layerProposals met layer) = m := ⟨_, rfl⟩
    rw [hproposed] at hbounded hlacks
    simp only [flow_succ depth met layer hproposed] at hattr
    rw [flow_succ depth met layer (hproposals ▸ hproposed)]
    have hmet : ∀ r ∈ proposed.keys, ¬(proposed.keys.foldl Met.insert met).lacks r := fun r hr =>
      not_lacks_foldl_insert (.inl hr)
    have hagain : proposed.toList.foldl (propose keepNames) h = h := by
      refine List.foldlRecOn (motive := (· = h)) _ _ rfl fun h₁ e p hp => ?_
      have hkey : p.1 ∈ proposed.keys := List.mem_map_of_mem hp
      have hlt : p.1 < g.size := Nat.lt_of_lt_of_le (Met.lacks_iff.1 (hlacks p.1 hkey)).1 hn
      have hkeys : proposed.keys.Nodup := proposed.sorted.imp Nat.ne_of_lt
      have haccepted : (h.attributes p.1).names =
          some (acceptNames keepNames p.2 (g.attributes p.1).names) := by
        rw [hattr, attributes, node_flow _ (hmet p.1 hkey)]
        exact congrArg Attributes.names (attributes_foldl_propose hkeys hp hlt)
      rw [e]
      exact propose_eq_self (hbounded p hp) haccepted
    have hsame : g.SameTypes (proposed.toList.foldl (propose keepNames) g) :=
      sameTypes_foldl_propose g proposed.toList
    rw [hagain]
    have hn₁ : n ≤ (proposed.toList.foldl (propose keepNames) g).size := hsame.size_eq ▸ hn
    exact ih (namesBounded_foldl_propose hb hbounded) hn₁ hmet
      (fun r => (hkind r).trans (hsame.kind_eq r).symm) hattr

end

/-! ## Gathering again -/

theorem sameTypes_nameTopLevel (g : Graph) (e : String × NodeId) :
    g.SameTypes (nameTopLevel g e) :=
  nameTopLevel_cases (fun _ => .refl g) fun _ => .modify g e.2 fun _ => rfl

theorem namesBounded_nameTopLevel (hg : g.NamesBounded) (e : String × NodeId) :
    (nameTopLevel g e).NamesBounded :=
  nameTopLevel_cases (fun _ => hg) fun _ => namesBounded_setAttributes hg fun _ hnames =>
    Option.some.inj hnames ▸ Names.bounded_single ..

/-- Top levels that were named have names. -/
theorem isSome_names_foldl_nameTopLevel {l : List (String × NodeId)} {r : NodeId} (hr : r < g.size)
    (h : r ∈ l.map Prod.snd ∨ (g.attributes r).names.isSome = true) :
    ((l.foldl nameTopLevel g).attributes r).names.isSome = true := by
  induction l generalizing g with
  | nil => exact h.resolve_left List.not_mem_nil
  | cons e l ih =>
    have hstep : (e.2 = r ∨ (g.attributes r).names.isSome = true) →
        ((nameTopLevel g e).attributes r).names.isSome = true := by
      intro h
      refine nameTopLevel_cases (P := fun g₁ => (g₁.attributes r).names.isSome = true)
        (fun hsome => h.elim (fun e => e ▸ hsome) id) fun _ => ?_
      rw [attributes, setAttributes, node_modify_eq]
      split
      · rfl
      · next hne => exact h.resolve_left fun e => hne ⟨e, hr⟩
    rw [List.map_cons, List.mem_cons] at h
    refine ih ((sameTypes_nameTopLevel g e).size_eq ▸ hr) ?_
    rcases h with (rfl | h) | h
    · exact .inr (hstep (.inl rfl))
    · exact .inl h
    · exact .inr (hstep (.inr h))

/-- **Where names were spread, spreading them changes nothing.** -/
theorem spreadNames_again (hg : g.WellFormed) (hb : g.NamesBounded) (hsame : g.SameTypes h)
    (hattr : ∀ r, h.attributes r = (g.spreadNames keepNames).attributes r) :
    h.spreadNames keepNames = h := by
  obtain ⟨hsize, hkind, htop⟩ := hsame
  unfold spreadNames at hattr ⊢
  dsimp only at hattr ⊢
  rw [hsize, htop]
  set layer := g.topLevels.values.eraseDups
  have hlayer : ∀ r ∈ layer, ¬(layer.foldl Met.insert (.nothing g.size)).lacks r := fun r hr =>
    not_lacks_foldl_insert (.inl hr)
  have hagain : g.topLevels.entries.foldl nameTopLevel h = h := by
    refine List.foldlRecOn (motive := (· = h)) _ _ rfl fun h₁ e₁ e he => ?_
    have hmem : e.2 ∈ g.topLevels.values := List.mem_map_of_mem he
    rw [e₁, nameTopLevel, if_pos]
    rw [hattr, attributes, node_flow _ (hlayer e.2 (by simpa [layer] using hmem))]
    exact isSome_names_foldl_nameTopLevel (hg.2 _ hmem) (.inl hmem)
  have htops : g.SameTypes (g.topLevels.entries.foldl nameTopLevel g) :=
    List.foldlRecOn (motive := g.SameTypes) _ _ (.refl g) fun g₁ h₁ e _ =>
      h₁.trans (sameTypes_nameTopLevel g₁ e)
  rw [hagain]
  refine flow_again g.size ?_ (Nat.le_of_eq htops.size_eq.symm) hlayer (fun r => ?_) hattr
  · exact List.foldlRecOn (motive := NamesBounded) _ _ hb fun _ h₁ e _ =>
      namesBounded_nameTopLevel h₁ e
  · exact (hkind r).trans (htops.kind_eq r).symm

/-! ## Final names again -/

theorem attributes_assignName (s : Graph × List String) (r t : NodeId) :
    (assignName s r).1.attributes t = s.1.attributes t := by
  refine assignName_cases (P := fun g => g.attributes t = s.1.attributes t) rfl fun name => ?_
  rw [attributes, node_modify_eq]
  split <;> rfl

/-- Turns of other nodes leave a node alone. -/
theorem node_foldl_assignName {s : Graph × List String} {todo : List NodeId} {t : NodeId}
    (ht : t ∉ todo) : (todo.foldl assignName s).1.node t = s.1.node t := by
  refine List.foldlRecOn (motive := fun s₁ : Graph × List String => s₁.1.node t = s.1.node t)
    todo _ rfl fun s₁ h r hr => ?_
  refine assignName_cases (P := fun g => g.node t = s.1.node t) h fun name => ?_
  rw [node_modify_eq, if_neg (by rintro ⟨rfl, -⟩; exact ht hr), h]

/-- Where a node has the name that it is assigned, assigning it changes nothing. -/
theorem assignName_again {s : Graph × List String} {r : NodeId} (hsame : s.1.SameTypes h)
    (hr : r < s.1.size) (hnode : h.node r = (assignName s r).1.node r) :
    assignName (h, s.2) r = (h, (assignName s r).2) := by
  have hattr : h.attributes r = s.1.attributes r :=
    (congrArg Node.attributes hnode).trans (attributes_assignName s r r)
  obtain ⟨g, used⟩ := s
  have hset : ∀ name, (g.modify r ({ · with name := some name })).node r =
      { g.node r with name := some name } := fun name => by
    rw [node_modify _ _ _ _ hr, if_pos rfl]
  unfold assignName at hnode ⊢
  dsimp only at hnode hattr ⊢
  rw [hsame.topLevels_eq, hsame.kind_eq, hattr]
  cases hfind : g.topLevels.entries.find? fun e => e.2 == r with
  | some e =>
    simp only [hfind, hset] at hnode ⊢
    rw [modify_eq_self]
    rw [hnode]
  | none =>
    simp only [hfind] at hnode ⊢
    split
    · next hnamed =>
      rw [if_pos hnamed, hset] at hnode
      rw [modify_eq_self]
      rw [hnode]
    · rfl

/-- **Where nodes have the names that they are assigned in turn, nothing changes.** -/
theorem foldl_assignName_again {s : Graph × List String} {todo : List NodeId} (hnodup : todo.Nodup)
    (htodo : ∀ r ∈ todo, r < s.1.size) (hsame : s.1.SameTypes h)
    (hnode : ∀ r ∈ todo, h.node r = (todo.foldl assignName s).1.node r) :
    (todo.foldl assignName (h, s.2)).1 = h := by
  induction todo generalizing s with
  | nil => rfl
  | cons r todo ih =>
    rw [List.nodup_cons] at hnodup
    rw [List.forall_mem_cons] at htodo hnode
    have hstep := sameTypes_assignName s r
    have hagain : assignName (h, s.2) r = (h, (assignName s r).2) := by
      refine assignName_again hsame htodo.1 ?_
      rw [hnode.1, List.foldl_cons, node_foldl_assignName hnodup.1]
    rw [List.foldl_cons, hagain]
    exact ih hnodup.2 (fun t ht => hstep.size_eq ▸ htodo.2 t ht) (hstep.symm.trans hsame) hnode.2

theorem attributes_assignNames (g : Graph) (t : NodeId) :
    g.assignNames.attributes t = g.attributes t :=
  List.foldlRecOn (motive := fun s : Graph × List String => s.1.attributes t = g.attributes t)
    _ _ rfl fun s h r _ => (attributes_assignName s r t).trans h

theorem assignNames_again (g : Graph) : g.assignNames.assignNames = g.assignNames := by
  have hsame := sameTypes_assignNames g
  have hids : g.assignNames.ids = g.ids := congrArg List.range hsame.size_eq
  rw [assignNames, hids, hsame.topLevels_eq]
  exact foldl_assignName_again (s := (g, g.topLevels.keys)) List.nodup_range
    (fun r hr => List.mem_range.1 hr) hsame fun _ _ => rfl

/-- Names that count as given stay. -/
theorem names_spreadNames_of_given {r : NodeId} {names : Names}
    (hr : (g.attributes r).names = some names)
    (hgiven : names.areInferred = false ∨ keepNames = true) :
    ((g.spreadNames keepNames).attributes r).names = some names := by
  refine spreadNames_induction (P := fun g₁ => (g₁.attributes r).names = some names) keepNames
    (fun g₁ t a h ha => ?_) hr
  rw [attributes, setAttributes, node_modify_eq]
  split
  · next htr => exact ha names (htr.1 ▸ h) hgiven
  · exact h

/-- **Gathering names twice is gathering them once**, where all names are such as operations on
    names give.  And given names stay, as do inferred ones if they are to be kept. -/
theorem gathering_settles (keepNames : Bool) (hg : g.WellFormed) (hb : g.NamesBounded) :
    (g.gatherNames keepNames).gatherNames keepNames = g.gatherNames keepNames ∧
    ∀ r names, (g.attributes r).names = some names → names.areInferred = false ∨ keepNames = true →
      ((g.gatherNames keepNames).attributes r).names = some names := by
  have hattr := attributes_assignNames (g.spreadNames keepNames)
  refine ⟨?_, fun r names hr hgiven => ?_⟩
  · have hspread : (g.gatherNames keepNames).spreadNames keepNames = g.gatherNames keepNames :=
      spreadNames_again hg hb (sameTypes_gatherNames keepNames g) hattr
    rw [gatherNames, hspread]
    exact assignNames_again _
  · exact (congrArg Attributes.names (hattr r)).trans (names_spreadNames_of_given hr hgiven)

/-- Volumes of a shelf.  Their name is inferred, that of their writers is given. -/
def shelf : Graph where
  nodes := #[.new (.record (.ofList [("novel", ⟨2, false⟩), ("atlases", ⟨1, true⟩)])),
    .new (.array 2),
    .new (.record (.ofList [("shelf", ⟨0, true⟩), ("by", ⟨3, false⟩)]))
      (.named "Volume" true),
    .new (.record ∅) (.named "Writer" false)]
  topLevels := .ofList [("Shelf", 0)]

/-- Volumes are novels too, but not once more, and writers stay writers. -/
theorem gathering_settles_shelf :
    shelf.WellFormed ∧ shelf.NamesBounded ∧
      ((shelf.gatherNames false).attributes 2).names =
        some (.regular (.ofList ["Volume", "novel"]) ∅ true) ∧
      (shelf.gatherNames false).gatherNames false = shelf.gatherNames false ∧
      ((shelf.gatherNames false).attributes 3).names = some (.single "Writer" false) := by
  have hg : shelf.WellFormed := ⟨by decide, by decide⟩
  have hb : shelf.NamesBounded := by
    intro r names h
    match r, h with
    | 2, h => exact Option.some.inj h ▸ Names.bounded_single ..
    | 3, h => exact Option.some.inj h ▸ Names.bounded_single ..
  have hsettles := gathering_settles false hg hb
  exact ⟨hg, hb, by decide +kernel, hsettles.1, hsettles.2 3 _ rfl (.inl rfl)⟩

end Graph

end SchemaTypes

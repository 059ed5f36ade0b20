/-
  Forwarding leads every reference to the end of its chain.

  * `Redirection.Walk`: following a chain without a bound, with the hops that it takes;
  * `ends_iff`, `exists_walk_iff`: in a redirection without cycles each chain has one end, and
    following it stops there, after no more hops than there are keys;
  * `Forwarded`: a graph with each reference led to an end, and nothing else changed;
  * `Redirection.Direct`: a redirection whose chains are single hops;
  * `forwarding_ends`: **forwarding along a redirection without cycles leaves no reference to a
    key, and the redirections of the passes are direct.**
-/
import SchemaTypes.Proofs.Classes
import SchemaTypes.Proofs.Merging

namespace SchemaTypes.Graph

open Relation (ReflTransGen TransGen)

namespace Redirection

variable {moved : Redirection} {start r s t e e' : NodeId} {n n' k : Nat}

/-! ## Where a chain ends -/

/-- No chain comes back to a node that it passed. -/
def Acyclic (moved : Redirection) : Prop := ∀ r, ¬TransGen moved.Step r r

theorem Acyclic.returns (h : moved.Acyclic) : moved.Returns := fun _ s _ hss => absurd hss (h s)

/-- A redirection that leads to later nodes only has no cycles. -/
theorem acyclic_of_lt (h : ∀ r s, moved.Step r s → r < s) : moved.Acyclic := by
  intro r hr
  have hlt : ∀ s, TransGen moved.Step r s → r < s := by
    intro s hs
    induction hs with
    | single hstep => exact h _ _ hstep
    | tail _ hstep ih => exact Nat.lt_trans ih (h _ _ hstep)
  exact Nat.lt_irrefl r (hlt r hr)

/-- The chain of a node leads to another, and no further. -/
def Ends (moved : Redirection) (r e : NodeId) : Prop :=
  ReflTransGen moved.Step r e ∧ moved.get? e = none

theorem Step.unique (h : moved.Step r s) (h' : moved.Step r t) : s = t :=
  Option.some.inj (h.symm.trans h')

/-- A chain has no two ends: of two nodes on it, one leads to the other. -/
theorem Ends.unique (h : moved.Ends r e) (h' : moved.Ends r e') : e = e' := by
  have hlast : ∀ {a b}, moved.get? a = none → ReflTransGen moved.Step a b → a = b := by
    intro a b ha hab
    rcases hab.cases_head with heq | ⟨c, hac, -⟩
    · exact heq
    · cases ha.symm.trans hac
  have hunique : Relator.RightUnique moved.Step := fun _ _ _ => Step.unique
  rcases ReflTransGen.total_of_right_unique hunique h.1 h'.1 with hee | hee
  · exact hlast h.2 hee
  · exact (hlast h'.2 hee).symm

/-- The chain of a node leads to where it is followed to. -/
theorem reaches_follow (moved : Redirection) (r : NodeId) :
    ReflTransGen moved.Step r (moved.follow r) :=
  follow_induction (P := ReflTransGen moved.Step r) (fun _ _ hst hs => hs.tail hst) .refl

/-- Without cycles a chain can only stop at its end. -/
theorem get?_of_stops (h : moved.Acyclic) (hreach : ReflTransGen moved.Step r e)
    (hstops : moved.Stops r e) : moved.get? e = none := by
  refine Option.eq_none_iff_forall_ne_some.2 fun s hs => ?_
  rcases hstops s hs with rfl | rfl
  · exact h s (.tail' hreach hs)
  · exact h s (.single hs)

/-! ## Following without a bound -/

/-- Following a chain from `start` takes so many hops and stops there. -/
inductive Walk (moved : Redirection) (start : NodeId) : NodeId → Nat → NodeId → Prop
  | stop {r : NodeId} (h : moved.Stops start r) : Walk moved start r 0 r
  | hop {r s e : NodeId} {n : Nat} (hstep : moved.Step r s) (hstart : s ≠ start) (hself : s ≠ r)
      (h : Walk moved start s n e) : Walk moved start r (n + 1) e

/-- Hops and end of a walk are determined. -/
theorem Walk.unique (h : moved.Walk start r n e) (h' : moved.Walk start r n' e') :
    n = n' ∧ e = e' := by
  induction h generalizing n' e' with
  | stop hstops =>
    cases h' with
    | stop => exact ⟨rfl, rfl⟩
    | hop hstep hstart hself _ => exact ((hstops _ hstep).elim hstart hself).elim
  | hop hstep hstart hself _ ih =>
    cases h' with
    | stop hstops => exact ((hstops _ hstep).elim hstart hself).elim
    | hop hstep' _ _ h' =>
      obtain rfl := hstep.unique hstep'
      obtain ⟨rfl, rfl⟩ := ih h'
      exact ⟨rfl, rfl⟩

/-- A walk goes on to the first node where the chain stops. -/
theorem walk_iterate (hstops : moved.Stops start (moved.next^[k] r))
    (hbefore : ∀ i < k, ¬moved.Stops start (moved.next^[i] r)) :
    moved.Walk start r k (moved.next^[k] r) := by
  induction k generalizing r with
  | zero => exact .stop hstops
  | succ k ih =>
    have hgoes : ¬moved.Stops start r := hbefore 0 (Nat.succ_pos k)
    simp only [Stops, not_forall, not_or] at hgoes
    obtain ⟨s, hstep, hstart, hself⟩ := hgoes
    obtain rfl := next_of_step hstep
    exact .hop hstep hstart hself (ih hstops fun i hi => hbefore (i + 1) (Nat.succ_lt_succ hi))

/-- The first stop of a chain that may only return to its start: the bound of following is not
    met before it. -/
theorem exists_walk (h : moved.Returns) (r : NodeId) :
    ∃ n ≤ moved.toList.length, moved.Walk r r n (moved.follow r) ∧
      moved.Stops r (moved.follow r) := by
  obtain ⟨k, hk, hstops, hbefore⟩ := exists_first_stop h r
  rw [follow, followFrom_eq_iterate hbefore hstops hk]
  exact ⟨k, hk, walk_iterate hstops hbefore, hstops⟩

/-- **Without cycles each chain has one end**, where it is followed to. -/
theorem ends_iff (h : moved.Acyclic) : moved.Ends r e ↔ e = moved.follow r := by
  obtain ⟨-, -, -, hstops⟩ := exists_walk h.returns r
  have hends : moved.Ends r (moved.follow r) :=
    ⟨moved.reaches_follow r, get?_of_stops h (moved.reaches_follow r) hstops⟩
  exact ⟨fun he => he.unique hends, fun he => he ▸ hends⟩

/-- **Following a chain stops**, after no more hops than there are keys. -/
theorem exists_walk_iff (h : moved.Acyclic) (r : NodeId) :
    ∃ n ≤ moved.toList.length, ∀ m e, moved.Walk r r m e ↔ m = n ∧ e = moved.follow r := by
  obtain ⟨n, hn, hwalk, -⟩ := exists_walk h.returns r
  refine ⟨n, hn, fun m e => ⟨fun h => h.unique hwalk, ?_⟩⟩
  rintro ⟨rfl, rfl⟩
  exact hwalk

/-! ## Single hops -/

/-- No value is a key, so that following a chain takes one hop at most. -/
structure Direct (moved : Redirection) : Prop where
  value_not_key : ∀ r s, moved.get? r = some s → moved.get? s = none
  one_hop : ∀ r s, moved.get? r = some s → moved.Walk r r 1 s

theorem direct_of_value_not_key (h : ∀ r s, moved.get? r = some s → moved.get? s = none) :
    moved.Direct where
  value_not_key := h
  one_hop r s hs := by
    have hne : s ≠ r := by
      rintro rfl
      cases (h s s hs).symm.trans hs
    refine .hop hs hne hne (.stop fun t ht => ?_)
    cases (h r s hs).symm.trans ht

end Redirection

/-! ## Forwarded graphs -/

variable {g : Graph}

/-- Every reference of `g` is led to where `ending` says, and no key of the redirection is
    referred to any more; all else is as it was. -/
structure Forwarded (moved : Redirection) (ending : NodeId → NodeId) (g h : Graph) : Prop where
  size_eq : h.size = g.size
  kind : ∀ r, (g.kind r).Renumbered false ending (h.kind r)
  topLevels : h.topLevels.entries = g.topLevels.entries.map fun e => (e.1, ending e.2)
  attributes : ∀ r, h.attributes r = g.attributes r
  fixed : ∀ r, (h.node r).fixed = (g.node r).fixed
  name : ∀ r, (h.node r).name = (g.node r).name
  child_not_key : ∀ r, ∀ c ∈ (h.kind r).children, moved.get? c = none
  topLevel_not_key : ∀ c ∈ h.topLevels.values, moved.get? c = none

/-- **Forwarding leads every reference to an end**, where all chains are followed to one. -/
theorem forwarded_forward {moved : Redirection} (h : ∀ r, moved.get? (moved.follow r) = none)
    (g : Graph) : Forwarded moved moved.follow g (g.forward moved) where
  size_eq := size_renameReferences g moved.follow
  kind r := by
    rw [forward, kind_renameReferences]
    exact Kind.renumbered_mapChildren moved.follow _
  topLevels := rfl
  attributes r := by
    rw [attributes, forward, node_renameReferences]
    rfl
  fixed r := by rw [forward, node_renameReferences]
  name r := by rw [forward, node_renameReferences]
  child_not_key r c hc := by
    rw [forward, kind_renameReferences, Kind.mem_children_mapChildren] at hc
    obtain ⟨d, -, rfl⟩ := hc
    exact h d
  topLevel_not_key c hc := by
    obtain ⟨e, he, rfl⟩ := List.mem_map.1 hc
    obtain ⟨d, -, rfl⟩ := List.mem_map.1 he
    exact h d.2

/-! ## The passes -/

/-- Flattening redirects unions to nodes that are none. -/
theorem direct_settle (hg : g.WellFormed) (conflate : Bool) :
    (g.settle conflate).redirection.Direct := by
  -- any reading of the formats will do
  obtain ⟨h, H⟩ := sound_foldl (ρ := .closed fun _ _ => False) rfl conflate hg
    (g.idsWhere Kind.isUnion) (fun u hu => (List.mem_filter.1 hu).2) (sound_start hg)
  exact Redirection.direct_of_value_not_key fun _ _ hm => H.get?_of_get? hm

/-- **Forwarding ends, and leads every reference to the one end of its chain**, if the redirection
    has no cycles: then no reference to a key is left, and nothing else changes.  The redirections
    of flattening, of absorbing strings, of merging classes and of merging equal types have no key
    among their values, so that each of their chains is a single hop. -/
theorem forwarding_ends (hg : g.WellFormed) (conflate same : Bool) :
    (∀ moved : Redirection, moved.Acyclic → ∃ ending,
      (∀ r e, moved.Ends r e ↔ e = ending r) ∧
      (∀ r, ∃ n ≤ moved.toList.length, ∀ m e, moved.Walk r r m e ↔ m = n ∧ e = ending r) ∧
      Forwarded moved ending g (g.forward moved)) ∧
    ((flattenUnions conflate g).1 =
        ((g.settle conflate).graph.forward (g.settle conflate).redirection).collect ∧
      (g.settle conflate).redirection.Direct) ∧
    (g.absorbStrings = g.absorption.graph.forward g.absorption.redirection ∧
      g.absorption.redirection.Direct) ∧
    (combineClasses same g =
        ((g.similarGroups same).foldl mergeGroup g).forward (g.classRedirection same) ∧
      (g.classRedirection same).Direct) ∧
    (g.mergeDuplicates.1 = g.forward (.ofList g.merged) ∧
      Redirection.Direct (.ofList g.merged)) := by
  refine ⟨fun moved h => ?_, ⟨rfl, direct_settle hg conflate⟩, ⟨rfl, ?_⟩, ⟨rfl, ?_⟩, ⟨rfl, ?_⟩⟩
  · exact ⟨moved.follow, fun _ _ => Redirection.ends_iff h, Redirection.exists_walk_iff h,
      forwarded_forward (fun r => ((Redirection.ends_iff h).2 rfl).2) g⟩
  · exact Redirection.direct_of_value_not_key fun _ _ ht => (absorbing_absorption g).get?_of_get? ht
  · exact Redirection.direct_of_value_not_key fun _ _ => get?_classRedirection_of_get?
  · exact Redirection.direct_of_value_not_key fun _ _ => get?_merged_of_get?

/-- A top level, a property and a union all refer to nodes that give way to others. -/
def relay : Graph where
  nodes := #[.new (.union (.ofList [1, 2])), .new .bool, .new (.array 0), .new .any,
    .new (.record (.ofList [("first", ⟨0, false⟩), ("rest", ⟨2, true⟩)]))]
  topLevels := .ofList [("Start", 0), ("Run", 4)]

/-- Three hops in a row. -/
def handovers : Redirection := .ofList [(0, 1), (1, 2), (2, 3)]

/-- The top level that led to the start of the chain leads to its end. -/
theorem forwarding_ends_relay : relay.WellFormed ∧ handovers.Acyclic ∧
    (∃ ending, (∀ r e, handovers.Ends r e ↔ e = ending r) ∧ ending 0 = 3 ∧
      Forwarded handovers ending relay (relay.forward handovers)) ∧
    (relay.settle true).redirection.Direct := by
  have hg : relay.WellFormed := ⟨by decide, by decide⟩
  have hentries : handovers.toList = [(0, 1), (1, 2), (2, 3)] := by decide
  have hacyclic : handovers.Acyclic := Redirection.acyclic_of_lt fun r s hstep => by
    have hmem : (r, s) ∈ handovers.toList := mem_of_lookup hstep
    rw [hentries] at hmem
    simp only [List.mem_cons, Prod.mk.injEq, List.not_mem_nil, or_false] at hmem
    rcases hmem with ⟨rfl, rfl⟩ | ⟨rfl, rfl⟩ | ⟨rfl, rfl⟩ <;> decide
  have h := forwarding_ends hg true true
  obtain ⟨ending, hends, -, hforwarded⟩ := h.1 handovers hacyclic
  have hchain : handovers.Ends 0 3 :=
    ⟨.head (b := 1) rfl (.head (b := 2) rfl (.single rfl)), rfl⟩
  exact ⟨hg, hacyclic, ⟨ending, hends, ((hends 0 3).1 hchain).symm, hforwarded⟩, h.2.1.2⟩

end SchemaTypes.Graph

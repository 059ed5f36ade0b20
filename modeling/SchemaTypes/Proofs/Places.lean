/-
  Schemas by their canonical references.

  A canonical reference is a path in a document that is known.  Where a schema describes further
  properties by a pattern, conversion puts their schema under `additionalProperties`, and so do the
  paths here.

  * `Json.followParts`, `Resolver.schemaAt?`: the schema of a canonical reference;
  * `Later.schemaAt?`, `Shows.schemaAt?`, `schemaAt?_push`: it stays the same, is what references
    are found to lead to, and has those below it under further keys;
  * `Schema.lookup_orderedProperties`: the order of properties does not change what they are.
-/
import SchemaTypes.Conversion
import SchemaTypes.Proofs.Retrieval

namespace SchemaTypes

/-! ## Paths -/

namespace Json

variable {doc v w : Json} {key : String}

/-- The value below a value at a key.  Further properties may be described by a pattern. -/
def part? (v : Json) (key : String) : Option Json :=
  match v with
  | object fields =>
    if key = "additionalProperties" then Schema.additional? fields else fields.lookup key
  | v => v.child? key

theorem part?_of_child? (h : v.child? key = some w) : v.part? key = some w := by
  unfold part?
  split
  · next fields =>
    split
    · next heq =>
      subst heq
      have hget : Schema.get? fields "additionalProperties" = some w := h
      simp only [Schema.additional?, hget]
    · exact h
  · exact h

/-- The value that steps lead to from a value of a document. -/
def followParts (doc v : Json) : List Step → Option Json
  | [] => some v
  | .root :: rest => followParts doc doc rest
  | .key k :: rest => (v.part? k).bind (followParts doc · rest)
  | _ :: _ => none

theorem followParts_append (doc v : Json) (p q : List Step) :
    followParts doc v (p ++ q) = (followParts doc v p).bind (followParts doc · q) := by
  fun_induction followParts doc v p with
  | case1 => rfl
  | case2 v rest ih => exact ih
  | case3 v k rest ih =>
    rw [List.cons_append, followParts, Option.bind_assoc]
    exact congrArg _ (funext ih)
  | case4 => simp_all [followParts]

theorem followParts_of_follow {p : List Step} (h : follow doc v p = some w) :
    followParts doc v p = some w := by
  fun_induction follow doc v p with
  | case1 => exact h
  | case2 v rest ih => exact ih h
  | case3 v k rest ih =>
    obtain ⟨x, hx, h⟩ := Option.bind_eq_some_iff.1 h
    rw [followParts, part?_of_child? hx]
    exact ih x h
  | case4 => cases h

end Json

/-! ## Canonical references -/

namespace Resolver

variable {r r' : Resolver} {place : Reference} {l : Location} {v c : Json} {k : String}

/-- The schema of a canonical reference. -/
def schemaAt? (r : Resolver) (place : Reference) : Option Json := do
  let a ← place.address
  let doc ← r.store.find? a
  doc.followParts doc place.path

theorem schemaAt?_eq_some_iff : r.schemaAt? place = some v ↔
    ∃ a doc, place.address = some a ∧ r.store.find? a = some doc ∧
      doc.followParts doc place.path = some v := by
  simp only [schemaAt?, bind, Option.bind_eq_some_iff, exists_and_left]

theorem Later.schemaAt? (h : r.Later r') (hv : r.schemaAt? place = some v) :
    r'.schemaAt? place = some v := by
  obtain ⟨a, doc, ha, hdoc, hv⟩ := schemaAt?_eq_some_iff.1 hv
  exact schemaAt?_eq_some_iff.2 ⟨a, doc, ha, h.find? hdoc, hv⟩

theorem Shows.schemaAt? (h : r.Shows l v) : r.schemaAt? l.canonical = some v := by
  obtain ⟨a, doc, ha, hdoc, -, hv⟩ := h
  exact schemaAt?_eq_some_iff.2
    ⟨a, doc, ha, hdoc, Json.followParts_of_follow (Reference.follow_of_lookup hv)⟩

theorem schemaAt?_push (h : r.schemaAt? l.canonical = some v) (hc : v.part? k = some c) :
    r.schemaAt? (l.push [k]).canonical = some c := by
  obtain ⟨a, doc, ha, hdoc, hv⟩ := schemaAt?_eq_some_iff.1 h
  refine schemaAt?_eq_some_iff.2 ⟨a, doc, ha, hdoc, ?_⟩
  rw [Location.path_push, Json.followParts_append, hv]
  simp [Json.followParts, hc]

end Resolver

/-! ## Properties in order -/

namespace Schema

theorem lookup_eq_head?_filter {β : Type} (l : List (String × β)) (k : String) :
    l.lookup k = ((l.filter fun e => k == e.1).head?).map Prod.snd := by
  induction l with
  | nil => rfl
  | cons e l ih =>
    rw [List.lookup_cons, List.filter_cons]
    cases k == e.1 with
    | true => rfl
    | false => exact ih

/-- Sorting by keys keeps the order of what has the same key. -/
theorem lookup_mergeSort {β : Type} {le : String → String → Bool}
    (htrans : ∀ a b c, le a b = true → le b c = true → le a c = true)
    (htotal : ∀ a b, (le a b || le b a) = true) (l : List (String × β)) (k : String) :
    (l.mergeSort fun a b => le a.1 b.1).lookup k = l.lookup k := by
  have hkey : ∀ e ∈ l.filter fun e => k == e.1, e.1 = k := fun e he =>
    (eq_of_beq (List.mem_filter.1 he).2).symm
  have hpairwise : (l.filter fun e => k == e.1).Pairwise fun a b => le a.1 b.1 = true := by
    refine List.pairwise_of_forall_mem_list fun a ha b hb => ?_
    rw [hkey a ha, hkey b hb]
    simpa using htotal k k
  have hsublist : (l.filter fun e => k == e.1).Sublist (l.mergeSort fun a b => le a.1 b.1) :=
    List.sublist_mergeSort (fun a b c => htrans a.1 b.1 c.1) (fun a b => htotal a.1 b.1)
      hpairwise List.filter_sublist
  have hfilter := hsublist.filter fun e => k == e.1
  rw [List.filter_filter] at hfilter
  simp only [Bool.and_self] at hfilter
  have hperm := (List.mergeSort_perm l fun a b : String × β => le a.1 b.1).filter fun e => k == e.1
  rw [lookup_eq_head?_filter, lookup_eq_head?_filter, hfilter.eq_of_length hperm.length_eq.symm]

theorem orderedBefore_trans (order : List String) (a b c : String)
    (hab : orderedBefore order a b = true) (hbc : orderedBefore order b c = true) :
    orderedBefore order a c = true := by
  simp only [orderedBefore, Bool.or_eq_true, Bool.and_eq_true, decide_eq_true_eq,
    beq_iff_eq] at hab hbc ⊢
  rcases hab with hab | ⟨hab, hab'⟩ <;> rcases hbc with hbc | ⟨hbc, hbc'⟩
  · exact .inl (Nat.lt_trans hab hbc)
  · exact .inl (hbc ▸ hab)
  · exact .inl (hab ▸ hbc)
  · exact .inr ⟨hab.trans hbc, String.le_trans hab' hbc'⟩

theorem orderedBefore_total (order : List String) (a b : String) :
    (orderedBefore order a b || orderedBefore order b a) = true := by
  simp only [orderedBefore, Bool.or_eq_true, Bool.and_eq_true, decide_eq_true_eq, beq_iff_eq]
  rcases Nat.lt_trichotomy (orderKey order a).1 (orderKey order b).1 with h | h | h
  · exact .inl (.inl h)
  · rcases String.le_total (orderKey order a).2 (orderKey order b).2 with h' | h'
    · exact .inl (.inr ⟨h, h'⟩)
    · exact .inr (.inr ⟨h.symm, h'⟩)
  · exact .inr (.inl h)

/-- **Putting properties in order does not change what a name stands for.** -/
theorem lookup_orderedProperties (s : Schema) (properties : Json.Fields) (name : String) :
    (s.orderedProperties properties).lookup name = properties.lookup name :=
  lookup_mergeSort (orderedBefore_trans _) (orderedBefore_total _) properties name

end Schema

end SchemaTypes

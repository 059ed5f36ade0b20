/-
  Resolving the references of a single document.

  * `Resolver.Serves`: the one document without identifiers can be had, and stays so;
  * `resolve_spec`, `resolveTopLevel_spec`: references lead where their paths do.
-/
import SchemaTypes.Proofs.Ensures
import SchemaTypes.Proofs.Following
import SchemaTypes.Proofs.Validity

namespace SchemaTypes

/-! ## Documents without identifiers -/

namespace Json

theorem ItemsWithoutIds.of_mem {v : Json} :
    ∀ {items : List Json}, ItemsWithoutIds items → v ∈ items → v.WithoutIds
  | _ :: _, h, hv => by
    rcases List.mem_cons.1 hv with rfl | hv
    · exact h.1
    · exact of_mem h.2 hv

theorem FieldsWithoutIds.of_mem {e : String × Json} :
    ∀ {fields : Fields}, FieldsWithoutIds fields → e ∈ fields → e.2.WithoutIds
  | _ :: _, h, he => by
    rcases List.mem_cons.1 he with rfl | he
    · exact h.1
    · exact of_mem h.2 he

theorem WithoutIds.child? {v w : Json} {k : String} (hv : v.WithoutIds)
    (h : v.child? k = some w) : w.WithoutIds := by
  cases v with
  | array items =>
    obtain ⟨i, -, hi⟩ := Option.bind_eq_some_iff.1 h
    exact ItemsWithoutIds.of_mem hv (List.mem_of_getElem? hi)
  | object fields => exact FieldsWithoutIds.of_mem hv.2 (mem_of_lookup h)
  | _ => cases h

end Json

theorem Location.withId_of_forall_ne {l : Location} {id : Option Json}
    (h : ∀ text, id ≠ some (.string text)) : l.withId id = .ok l := by
  unfold Location.withId
  split
  · next text => exact absurd rfl (h text)
  · rfl

namespace Scopes

mutual

/-- Crawling enters nothing where there are no identifiers. -/
theorem entries_of_withoutIds : ∀ {v : Json} {l : Location}, l.hasId = false →
    v.WithoutIds → entries l v = ⟨[], none⟩
  | .array items, l, hl, h => by
    rw [entries]
    exact entriesOfItems_of_withoutIds hl h
  | .object fields, l, hl, h => by
    rw [entries, Location.withId_of_forall_ne h.1]
    simp only [hl, Bool.false_eq_true, if_false, Crawl.andThen, Option.isSome_none,
      entriesOfFields_of_withoutIds hl h.2, List.nil_append]
  | .null, _, _, _ | .bool _, _, _, _ | .number _, _, _, _ | .string _, _, _, _ => rfl

theorem entriesOfItems_of_withoutIds : ∀ {items : List Json} {l : Location} {i : Nat},
    l.hasId = false → Json.ItemsWithoutIds items → entriesOfItems l i items = ⟨[], none⟩
  | [], _, _, _, _ => rfl
  | v :: rest, l, i, hl, h => by
    have hv : entries (l.push [toString i]) v = ⟨[], none⟩ := entries_of_withoutIds hl h.1
    rw [entriesOfItems, hv, entriesOfItems_of_withoutIds hl h.2]
    rfl

theorem entriesOfFields_of_withoutIds : ∀ {fields : Json.Fields} {l : Location},
    l.hasId = false → Json.FieldsWithoutIds fields → entriesOfFields l fields = ⟨[], none⟩
  | [], _, _, _ => rfl
  | (k, v) :: rest, l, hl, h => by
    have hv : entries (l.push [k]) v = ⟨[], none⟩ := entries_of_withoutIds hl h.1
    rw [entriesOfFields, hv, entriesOfFields_of_withoutIds hl h.2]
    rfl

end

end Scopes

namespace Resolver

variable {a : Address} {doc : Json} {r : Resolver}

/-- The document is there, or will be when it is asked for, and nothing is known by an
    identifier. -/
structure Serves (r : Resolver) (a : Address) (doc : Json) : Prop where
  places_eq : r.scopes.places = []
  find : r.store.find? a = some doc ∨
    r.store.find? a = none ∧ ∀ n, r.store.fetcher n a = .ok doc

theorem serves_ofFetcher {fetcher : Fetcher} (h : ∀ n, fetcher n a = .ok doc) :
    (ofFetcher fetcher).Serves a doc where
  places_eq := rfl
  find := .inr ⟨rfl, h⟩

theorem document_spec (h : r.Serves a doc) :
    Ensures (document? a) r fun v r' => v = some doc ∧ r'.Serves a doc := by
  intro v r' hv
  have hget : (r.store.get a).1 = some doc ∧ (r.store.get a).2.find? a = some doc := by
    unfold Store.get
    rcases h.find with hf | ⟨hf, hn⟩
    · simp only [hf, and_self]
    · simp only [hf, hn, true_and]
      exact List.lookup_cons_self
  cases hv
  exact ⟨hget.1, h.places_eq, .inl hget.2⟩

theorem crawl_spec (hdoc : doc.WithoutIds) (h : r.Serves a doc) :
    Ensures (crawl doc a) r fun _ r' => r'.Serves a doc := by
  intro b r' hb
  have hplaces : (r.scopes.addDocument doc a).2.places = [] := by
    unfold Scopes.addDocument
    split
    · exact h.places_eq
    · rw [Scopes.entries_of_withoutIds rfl hdoc]
      exact h.places_eq
  obtain rfl := congrArg Prod.snd hb
  exact ⟨hplaces, h.find⟩

end Resolver

/-- The location is in the document at an address, and reached by a path alone, or from
    there. -/
structure Location.LiesIn (l : Location) (a : Address) : Prop where
  address_eq : l.canonical.address = some a
  reached_eq : ∀ b ∈ l.reached.address, b = a

theorem Location.LiesIn.push {l : Location} {a : Address} (hl : l.LiesIn a) (keys : List String) :
    (l.push keys).LiesIn a :=
  ⟨hl.address_eq, hl.reached_eq⟩

namespace Resolver

variable {a : Address} {doc : Json} {r : Resolver} {base : Location} {ref : Reference}

theorem canonize_eq (h : r.Serves a doc) (hbase : base.LiesIn a) (href : ref.address = none) :
    r.scopes.canonize base ref = ⟨⟨some a, ref.path⟩, ⟨none, ref.path⟩, false⟩ := by
  unfold Scopes.canonize
  simp only [h.places_eq, List.lookup_nil]
  obtain ⟨_, path⟩ := ref
  cases href
  cases hr : base.reached.address with
  | none => simp [Reference.resolve, hr, hbase.address_eq]
  | some b =>
    cases hbase.reached_eq b hr
    simp [Reference.resolve, hr]

/-- The target of a reference: the value that its path leads to, and its location. -/
structure Target (a : Address) (doc : Json) (ref : Reference) (v : Json) (l : Location) : Prop where
  lookup_eq : ref.lookup doc = .ok v
  canonical_eq : l.canonical = ⟨some a, ref.path⟩
  liesIn : l.LiesIn a

theorem Target.path_eq {v : Json} {l : Location} (h : Target a doc ref v l) :
    l.canonical.path = ref.path := by
  rw [h.canonical_eq]

theorem attempt_spec (hdoc : doc.WithoutIds) {lookupBase : Location} (hbase : base.LiesIn a)
    (hlookup : lookupBase.LiesIn a) (href : ref.address = none) (retries : Nat)
    (h : r.Serves a doc) :
    Ensures (attempt base lookupBase ref retries) r fun x r' =>
      r'.Serves a doc ∧ ∃ v, x.1 = some v ∧ Target a doc ref v x.2 := by
  induction retries using Nat.strongRecOn generalizing r with
  | ind retries ih =>
  rw [attempt.eq_def]
  refine Ensures.bind (ensures_get ?_)
  dsimp only
  rw [canonize_eq h hbase href]
  dsimp only
  refine Ensures.bind ((document_spec h).mono ?_)
  rintro _ r₁ ⟨rfl, h₁⟩
  dsimp only
  refine Ensures.bind ((crawl_spec hdoc h₁).mono ?_)
  intro b r₂ h₂
  cases b with
  | true =>
    cases retries with
    | zero => exact ensures_throw
    | succ n => exact ih n (Nat.lt_succ_self n) h₂
  | false =>
    simp only [Bool.false_eq_true, if_false]
    refine Ensures.bind (ensures_get ?_)
    rw [canonize_eq h₂ hlookup href]
    refine Ensures.bind (ensures_lift fun v hv => ensures_pure ?_)
    refine ⟨h₂, v, rfl, Reference.lookup_congr (r := ⟨some a, ref.path⟩) rfl hv, rfl,
      rfl, ?_⟩
    simp

theorem resolveTwice_spec (hdoc : doc.WithoutIds) (hbase : base.LiesIn a)
    (href : ref.address = none) (h : r.Serves a doc) :
    Ensures (resolveTwice base ref) r fun x r' =>
      r'.Serves a doc ∧ ∃ v, x.1 = some v ∧ Target a doc ref v x.2 := by
  unfold resolveTwice
  refine Ensures.bind ((attempt_spec hdoc hbase hbase href 1 h).mono ?_)
  rintro ⟨_, l⟩ r' ⟨h', v, rfl, ht⟩
  exact ensures_pure ⟨h', v, rfl, ht⟩

/-- **A reference in the document leads where its path does.** -/
theorem resolve_spec (hdoc : doc.WithoutIds) (hbase : base.LiesIn a) (href : ref.address = none)
    (h : r.Serves a doc) :
    Ensures (resolve base ref) r fun x r' => r'.Serves a doc ∧ Target a doc ref x.1 x.2 := by
  unfold resolve
  refine Ensures.bind ((resolveTwice_spec hdoc hbase href h).mono ?_)
  rintro ⟨_, l⟩ r' ⟨h', v, rfl, ht⟩
  exact ensures_pure ⟨h', ht⟩

/-- **So does a reference to the document.** -/
theorem resolveTopLevel_spec (hdoc : doc.WithoutIds) (href : ref.address = some a)
    (h : r.Serves a doc) :
    Ensures (resolveTopLevel ref) r fun x r' => r'.Serves a doc ∧ Target a doc ref x.1 x.2 := by
  have hbase : (Location.ofReference ⟨ref.address, []⟩).LiesIn a :=
    ⟨href, fun b hb => Option.some.inj (hb.symm.trans href)⟩
  unfold resolveTopLevel
  refine Ensures.bind ((resolveTwice_spec hdoc hbase rfl h).mono ?_)
  rintro ⟨_, l⟩ r' ⟨h', v, rfl, ht⟩
  have hlookup := Reference.lookup_congr (r := ⟨none, ref.path⟩) (s := ref) rfl ht.lookup_eq
  exact ensures_pure ⟨h', hlookup, ht.canonical_eq, ht.liesIn⟩

end Resolver

end SchemaTypes

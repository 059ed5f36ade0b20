/-
  What the keywords of a schema admit, against what is read from them.

  A value that the keywords accept belongs to one of the types that a schema includes
  (`exists_included`) or that it is open to (`isOpenTo_of_accepts`), its strings are among those
  that the schema lists (`mem_cases`), and its objects have the required names
  (`mem_required_iff`).
-/
import SchemaTypes.Proofs.Following
import SchemaTypes.Proofs.Validity

namespace SchemaTypes

/-! ## Equal values -/

theorem Binary64.isWhole_eq_of_beq {x y : Binary64} (h : x == y) : x.isWhole = y.isWhole := by
  have hkey : x.key = y.key := by simpa using (show (x.key == y.key) = true from h)
  have hrank : x.rank = y.rank := by
    unfold key at hkey
    split at hkey <;> split at hkey <;> omega
  rw [isWhole, isWhole, units, units, hrank]

namespace Json.Equals

variable {v w : Json}

theorem isScalar_eq (h : v.Equals w) : v.isScalar = w.isScalar := by
  cases h <;> rfl

theorem typeName_eq (h : v.Equals w) : v.typeName = w.typeName := by
  cases h <;> rfl

/-- Values that are equal belong to the same types. -/
theorem accepts_eq (h : v.Equals w) (t : Primitive) : t.accepts v = t.accepts w := by
  cases h with
  | refl => rfl
  | number h =>
    cases t with
    | integer => exact Binary64.isWhole_eq_of_beq h
    | _ => rfl

theorem eq_string {text : String} (h : v.Equals (.string text)) : v = .string text := by
  cases h
  rfl

end Json.Equals

/-! ## Lists -/

section

variable {ε α β : Type} {f : α → Except ε β}

theorem exists_of_mapM_cons {x : α} {xs : List α} {ys : List β} (h : (x :: xs).mapM f = .ok ys) :
    ∃ y ys', f x = .ok y ∧ xs.mapM f = .ok ys' ∧ ys = y :: ys' := by
  rw [List.mapM_cons] at h
  obtain ⟨y, hy, h⟩ := except_bind_eq_ok.1 h
  obtain ⟨ys', hys, h⟩ := except_bind_eq_ok.1 h
  cases h
  exact ⟨y, ys', hy, hys, rfl⟩

theorem exists_right_of_mapM {xs : List α} {ys : List β} (h : xs.mapM f = .ok ys) {x : α}
    (hx : x ∈ xs) : ∃ y ∈ ys, f x = .ok y := by
  induction xs generalizing ys with
  | nil => exact absurd hx List.not_mem_nil
  | cons x' xs ih =>
    obtain ⟨y, ys', hy, hys, rfl⟩ := exists_of_mapM_cons h
    rcases List.mem_cons.1 hx with rfl | hx
    · exact ⟨y, List.mem_cons_self, hy⟩
    · obtain ⟨z, hz, he⟩ := ih hys hx
      exact ⟨z, List.mem_cons_of_mem y hz, he⟩

theorem exists_left_of_mapM {xs : List α} {ys : List β} (h : xs.mapM f = .ok ys) {y : β}
    (hy : y ∈ ys) : ∃ x ∈ xs, f x = .ok y := by
  induction xs generalizing ys with
  | nil =>
    cases h
    exact absurd hy List.not_mem_nil
  | cons x xs ih =>
    obtain ⟨z, ys', hz, hys, rfl⟩ := exists_of_mapM_cons h
    rcases List.mem_cons.1 hy with rfl | hy
    · exact ⟨x, List.mem_cons_self, hz⟩
    · obtain ⟨x', hx, he⟩ := ih hys hy
      exact ⟨x', List.mem_cons_of_mem x hx, he⟩

end

namespace Schema

variable {s : Schema} {formats : Format → String → Prop} {doc : Json} {B : Json → Json → Prop}
  {v : Json} {place : Reference} {allowed : Option (List Primitive)}

/-! ## Types -/

/-- The type that a value belongs to whatever the value, apart from its being whole. -/
theorem accepts_of_ofName? {t : Primitive} (h : Primitive.ofName? v.typeName = some t) :
    t.accepts v = true := by
  cases v <;> cases h <;> rfl

theorem exists_ofName?_typeName (v : Json) : ∃ t, Primitive.ofName? v.typeName = some t := by
  cases v <;> exact ⟨_, rfl⟩

theorem mem_typeNames {t : Json} {names : List String} {name : String}
    (h : typeNames place t = .ok names) (hname : t.NamesType name) : name ∈ names := by
  rcases hname with rfl | ⟨items, rfl, hitem⟩
  · cases h
    exact List.mem_singleton_self name
  · obtain ⟨n, hn, he⟩ := exists_right_of_mapM h hitem
    cases he
    exact hn

/-- The types that are allowed have one for each value that is accepted: the type that `type`
    names, or else the type that the value has. -/
theorem exists_allowed (h : s.Accepts formats doc B v) (ha : s.types? place = .ok allowed) :
    ∃ t, t.accepts v = true ∧ (∀ types ∈ allowed, t ∈ types) ∧
      (s.get? "type" = none → Primitive.ofName? v.typeName = some t) ∧
      ∀ name, s.get? "type" = some (.string name) → Primitive.ofName? name = some t := by
  unfold types? at ha
  cases htype : s.get? "type" with
  | none =>
    rw [htype] at ha
    cases ha
    obtain ⟨t, ht⟩ := exists_ofName?_typeName v
    exact ⟨t, accepts_of_ofName? ht, by simp, fun _ => ht, by simp⟩
  | some tv =>
    rw [htype] at ha
    obtain ⟨name, hname, t, ht, hacc⟩ := h.type tv htype
    refine ⟨t, hacc, ?_, by simp, fun name' hn => ?_⟩
    · obtain ⟨names, hnames, ha⟩ := except_bind_eq_ok.1 ha
      intro types htypes
      have hmem := mem_typeNames hnames hname
      split at ha
      · cases ha
      · obtain ⟨types', hmap, ha⟩ := except_bind_eq_ok.1 ha
        cases ha
        cases htypes
        obtain ⟨t', ht', he⟩ := exists_right_of_mapM hmap hmem
        simp only [ht] at he
        cases he
        exact ht'
    · cases hn
      rcases hname with he | ⟨items, he, -⟩
      · cases he
        exact ht
      · cases he

/-! ## Included types -/

theorem enumValues?_eq_some_iff {values : List Json} :
    s.enumValues? = some values ↔ s.get? "enum" = some (.array values) := by
  unfold enumValues?
  cases s.get? "enum" with
  | none => simp
  | some e => cases e <;> simp [Json.array?]

/-- The type of a scalar that is accepted is among those that a schema includes. -/
theorem exists_included (hs : s.Plain) (h : s.Accepts formats doc B v)
    (ha : s.types? place = .ok allowed) : ∃ t ∈ s.included allowed, t.accepts v = true := by
  obtain ⟨t, ht, hallowed, hnone, hname⟩ := exists_allowed h ha
  refine ⟨t, List.mem_filter.2 ⟨by cases t <;> decide, ?_⟩, ht⟩
  unfold includes
  rw [Bool.and_eq_true]
  constructor
  · cases allowed with
    | none => rfl
    | some types => exact decide_eq_true (hallowed types rfl)
  · cases henum : s.enumValues? with
    | some values =>
      obtain ⟨e, he, hev⟩ := h.enum values (enumValues?_eq_some_iff.1 henum)
      exact List.any_eq_true.2 ⟨e, he, (hev.accepts_eq t).trans ht⟩
    | none =>
      cases hconst : s.get? "const" with
      | none => rfl
      | some c =>
        refine decide_eq_true ?_
        unfold constType?
        split
        · next name htype => exact hname name htype
        · next tv hne htype =>
          obtain ⟨name, rfl | ⟨items, rfl, -⟩, -⟩ := h.type tv htype
          · exact absurd rfl (hne name)
          · exact absurd htype (hs.type_of_const (by rw [has, hconst]; rfl) items)
        · next htype =>
          rw [(h.const c hconst).typeName_eq]
          exact hnone htype

/-- A schema is open to the arrays and objects that are accepted. -/
theorem isOpenTo_of_accepts (hs : s.Plain) (hv : v.isScalar = false)
    (h : s.Accepts formats doc B v) (ha : s.types? place = .ok allowed) {t : Primitive}
    (ht : Primitive.ofName? v.typeName = some t) : s.isOpenTo allowed t = true := by
  have henum : s.enumValues? = none := by
    rw [Option.eq_none_iff_forall_ne_some]
    intro values hvalues
    rw [enumValues?_eq_some_iff] at hvalues
    obtain ⟨e, he, hev⟩ := h.enum values hvalues
    have hscalar := hs.isScalar_enum values hvalues e he
    rw [hev.isScalar_eq, hv] at hscalar
    cases hscalar
  have hconst : s.has "const" = false := by
    unfold has
    cases hc : s.get? "const" with
    | none => rfl
    | some c =>
      have hscalar := hs.isScalar_const c hc
      rw [(h.const c hc).isScalar_eq, hv] at hscalar
      cases hscalar
  obtain ⟨t', ht', hallowed, -⟩ := exists_allowed h ha
  have heq : t' = t := by
    cases v with
    | array ws => cases ht; cases t' <;> first | rfl | cases ht'
    | object fields => cases ht; cases t' <;> first | rfl | cases ht'
    | _ => cases hv
  unfold isOpenTo
  rw [henum, hconst]
  cases allowed with
  | none => rfl
  | some types => exact decide_eq_true (heq ▸ hallowed types rfl)

/-! ## Strings -/

/-- The strings that are accepted are among those that a schema lists. -/
theorem mem_cases {text : String} (h : s.Accepts formats doc B (.string text)) :
    ∀ cases ∈ s.cases?, text ∈ cases := by
  intro cases hcases
  unfold cases? at hcases
  split at hcases
  · next c hc =>
    cases hcases
    cases (h.const _ hc).eq_string
    exact SortedSet.mem_singleton.2 rfl
  · next c hne hc => exact absurd ((h.const c hc).eq_string) (hne text)
  · split at hcases
    · next values hvalues =>
      dsimp only at hcases
      split at hcases
      · cases hcases
      · cases hcases
        obtain ⟨e, he, hev⟩ := h.enum values (enumValues?_eq_some_iff.1 hvalues)
        rw [hev.eq_string] at he
        exact SortedSet.mem_ofList.2 (List.mem_filterMap.2 ⟨_, he, rfl⟩)
    · cases hcases

/-! ## Objects -/

/-- Objects that are accepted have the required names. -/
theorem mem_keys_of_required {fields : Json.Fields} {required : List String}
    (h : s.Accepts formats doc B (.object fields)) (hr : s.required place = .ok required)
    {name : String} (hname : name ∈ required) : name ∈ fields.map Prod.fst := by
  unfold Schema.required at hr
  split at hr
  · cases hr
    exact absurd hname List.not_mem_nil
  · cases hr
    exact absurd hname List.not_mem_nil
  · next items hitems =>
    obtain ⟨item, hitem, he⟩ := exists_left_of_mapM hr hname
    refine h.required items fields hitems rfl name ?_
    cases item with
    | string n =>
      cases he
      exact hitem
    | _ => cases he
  · cases hr

/-- No property declares itself required. -/
theorem allRequired_eq {required : List String} {properties : Json.Fields}
    (hp : ∀ e ∈ properties, ∀ sub, e.2 = .object sub → Plain sub) :
    allRequired required properties = required := by
  unfold allRequired
  induction properties with
  | nil => rfl
  | cons e properties ih =>
    have hne : ∀ b, e.2.field? "required" ≠ some (.bool b) := fun b hb => by
      cases hv : e.2 with
      | object sub =>
        rw [hv] at hb
        exact (hp e List.mem_cons_self sub hv).required b hb
      | _ => simp [hv, Json.field?] at hb
    rw [List.foldl_cons]
    split
    · next hb => exact absurd hb (hne true)
    · exact ih fun e he => hp e (List.mem_cons_of_mem _ he)

theorem additional?_eq (hs : s.Plain) : s.additional? = s.get? "additionalProperties" := by
  unfold additional?
  rw [hs.patternProperties]
  split <;> simp_all

end Schema

end SchemaTypes

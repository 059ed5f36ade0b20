/-
  Resolving in steps.

  Whatever a reference leads to, a resolver only asks for documents and crawls those it has.

  * `Resolver.Move`, `Resolver.Later`: one such step, and what becomes of a resolver; a document
    that is known stays, and so does that it was crawled;
  * `Resolver.Shows`: a location stands for a value in a document that is known and was crawled;
  * `passes_attempt`, `passes_resolve`, `passes_resolveTopLevel`: resolving takes such steps, and
    shows what it finds.
-/
import SchemaTypes.Proofs.Ensures
import SchemaTypes.Proofs.Following

namespace SchemaTypes

/-! ## Errors -/

/-- Any error but that of a bound. -/
def ConversionError.Ordinary (e : ConversionError) : Prop := ∀ place, e ≠ .tooDeep place

/-- An ordinary error that is not about a document crawled twice either. -/
def ConversionError.Plain (e : ConversionError) : Prop := e.Ordinary ∧ ∀ a, e ≠ .crawledTwice a

theorem except_bind_eq_error {ε α β : Type} {x : Except ε α} {f : α → Except ε β} {e : ε} :
    (x >>= f) = .error e ↔ x = .error e ∨ ∃ y, x = .ok y ∧ f y = .error e := by
  cases x <;> simp [bind, Except.bind]

section

variable {e : ConversionError}

theorem plain_checkObject {v : Json} {place : Reference} (h : checkObject v place = .error e) :
    e.Plain := by
  unfold checkObject at h
  split at h <;> cases h <;> exact ⟨fun _ hp => (by cases hp), fun _ hp => (by cases hp)⟩

theorem plain_checkSchema {v : Json} {place : Reference} (h : checkSchema v place = .error e) :
    e.Plain := by
  unfold checkSchema at h
  split at h
  · cases h
  · cases hv : checkObject v place with
    | error e' =>
      rw [hv] at h
      cases h
      exact plain_checkObject hv
    | ok fields =>
      rw [hv] at h
      cases h

theorem plain_lookupKey {k : String} {v : Json} {place : Reference}
    (h : Reference.lookupKey k v place = .error e) : e.Plain := by
  unfold Reference.lookupKey at h
  split at h
  · split at h
    · cases h
      exact ⟨fun _ hp => (by cases hp), fun _ hp => (by cases hp)⟩
    · split at h <;> cases h
      exact ⟨fun _ hp => (by cases hp), fun _ hp => (by cases hp)⟩
  · rcases except_bind_eq_error.1 h with h | ⟨fields, -, h⟩
    · exact plain_checkObject h
    · split at h <;> cases h
      exact ⟨fun _ hp => (by cases hp), fun _ hp => (by cases hp)⟩

theorem plain_walk {r : Reference} {doc v : Json} {walked rest : List Step}
    (h : Reference.walk r doc walked v rest = .error e) : e.Plain := by
  fun_induction Reference.walk r doc walked v rest with
  | case1 => cases h
  | case2 walked v rest ih => exact ih h
  | case3 walked v k rest ih =>
    rcases except_bind_eq_error.1 h with h | ⟨w, -, h⟩
    · exact plain_lookupKey h
    · exact ih w h
  | case4 =>
    cases h
    exact ⟨fun _ hp => (by cases hp), fun _ hp => (by cases hp)⟩

theorem plain_lookup {r : Reference} {doc : Json} (h : r.lookup doc = .error e) :
    e.Plain := by
  unfold Reference.lookup at h
  rcases except_bind_eq_error.1 h with h | ⟨v, -, h⟩
  · exact plain_walk h
  · rcases except_bind_eq_error.1 h with h | ⟨_, -, h⟩
    · exact plain_checkSchema h
    · cases h

theorem plain_withId {l : Location} {id : Option Json} (h : l.withId id = .error e) :
    e.Plain := by
  unfold Location.withId at h
  split at h
  · dsimp only at h
    split at h
    · cases h
    · split at h <;> cases h
      exact ⟨fun _ hp => (by cases hp), fun _ hp => (by cases hp)⟩
  · cases h

theorem Scopes.Crawl.error_andThen {c next : Crawl} (h : (c.andThen next).error = some e) :
    c.error = some e ∨ next.error = some e := by
  unfold andThen at h
  split at h
  · exact .inl h
  · exact .inr h

mutual

/-- A crawl fails only with what an identifier is refused for. -/
theorem plain_entries : ∀ {v : Json} {l : Location},
    (Scopes.entries l v).error = some e → e.Plain
  | .array items, l, h => by
    rw [Scopes.entries] at h
    exact plain_entriesOfItems h
  | .object fields, l, h => by
    rw [Scopes.entries] at h
    split at h
    · next e' hid =>
      cases h
      exact plain_withId hid
    · rcases Scopes.Crawl.error_andThen h with h | h
      · cases h
      · exact plain_entriesOfFields h
  | .null, _, h | .bool _, _, h | .number _, _, h | .string _, _, h => by cases h

theorem plain_entriesOfItems : ∀ {items : List Json} {l : Location} {i : Nat},
    (Scopes.entriesOfItems l i items).error = some e → e.Plain
  | [], _, _, h => by cases h
  | v :: rest, l, i, h => by
    rw [Scopes.entriesOfItems] at h
    rcases Scopes.Crawl.error_andThen h with h | h
    · exact plain_entries h
    · exact plain_entriesOfItems h

theorem plain_entriesOfFields : ∀ {fields : Json.Fields} {l : Location},
    (Scopes.entriesOfFields l fields).error = some e → e.Plain
  | [], _, h => by cases h
  | (k, v) :: rest, l, h => by
    rw [Scopes.entriesOfFields] at h
    rcases Scopes.Crawl.error_andThen h with h | h
    · exact plain_entries h
    · exact plain_entriesOfFields h

end

end

/-! ## Documents stay -/

namespace Store

variable {s : Store} {a b : Address} {v : Json}

theorem get_of_find (h : s.find? a = some v) : s.get a = (some v, s) := by
  unfold get
  simp only [h]

/-- A store is asked for a document that it does not have. -/
theorem get_of_find_none (h : s.find? a = none) :
    (∃ e, s.fetcher s.fetchCount a = .error e ∧
      s.get a = (none, { s with asked := a :: s.asked })) ∨
    ∃ v, s.fetcher s.fetchCount a = .ok v ∧
      s.get a = (some v, { s with asked := a :: s.asked, documents := (a, v) :: s.documents }) := by
  unfold get
  simp only [h]
  cases hfetch : s.fetcher s.fetchCount a with
  | error e => exact .inl ⟨e, rfl, rfl⟩
  | ok v => exact .inr ⟨v, rfl, rfl⟩

theorem find?_get (h : s.find? a = some v) (b : Address) : (s.get b).2.find? a = some v := by
  cases hb : s.find? b with
  | some w => rw [get_of_find hb, h]
  | none =>
    rcases get_of_find_none hb with ⟨e, -, heq⟩ | ⟨w, -, heq⟩
    · rw [heq]
      exact h
    · rw [heq]
      have hne : a ≠ b := by
        rintro rfl
        rw [h] at hb
        cases hb
      have hlookup : s.documents.lookup a = some v := h
      simp [find?, List.lookup_cons, beq_false_of_ne hne, hlookup]

theorem find?_of_get (h : (s.get a).1 = some v) : (s.get a).2.find? a = some v := by
  cases ha : s.find? a with
  | some w =>
    rw [get_of_find ha] at h ⊢
    exact ha.trans h
  | none =>
    rcases get_of_find_none ha with ⟨e, -, heq⟩ | ⟨w, -, heq⟩ <;> rw [heq] at h ⊢
    · cases h
    · cases h
      exact List.lookup_cons_self

end Store

namespace Scopes

variable {s : Scopes} {a b : Address} {v : Json}

theorem addDocument_of_isCrawled (h : s.isCrawled a = true) :
    s.addDocument v a = (.ok false, s) :=
  if_pos h

/-- A crawl adds entries, and the address if it does not fail. -/
theorem addDocument_of_not_isCrawled (h : ¬s.isCrawled a = true) :
    (∃ e, (entries (rootLocation a) v).error = some e ∧ s.addDocument v a =
      (.error e, { s with places := (entries (rootLocation a) v).entries.reverse ++ s.places })) ∨
    (entries (rootLocation a) v).error = none ∧ s.addDocument v a =
      (.ok true, ⟨(entries (rootLocation a) v).entries.reverse ++ s.places, a :: s.crawled⟩) := by
  unfold addDocument
  rw [if_neg h]
  dsimp only
  cases herror : (entries (rootLocation a) v).error with
  | some e => exact .inl ⟨e, rfl, rfl⟩
  | none => exact .inr ⟨rfl, rfl⟩

theorem isCrawled_addDocument (h : s.isCrawled a = true) (v : Json) (b : Address) :
    (s.addDocument v b).2.isCrawled a = true := by
  by_cases hb : s.isCrawled b = true
  · rw [addDocument_of_isCrawled hb]
    exact h
  · rcases addDocument_of_not_isCrawled (v := v) hb with ⟨e, -, heq⟩ | ⟨-, heq⟩
    · rw [heq]
      exact h
    · rw [heq]
      have hcrawled : a ∈ s.crawled := by simpa [isCrawled] using h
      simp [isCrawled, hcrawled]

/-- Unless the crawl fails, the document counts as crawled from then on. -/
theorem isCrawled_of_addDocument {first : Bool} (h : (s.addDocument v a).1 = .ok first) :
    (s.addDocument v a).2.isCrawled a = true := by
  by_cases ha : s.isCrawled a = true
  · exact isCrawled_addDocument ha v a
  · rcases addDocument_of_not_isCrawled (v := v) ha with ⟨e, -, heq⟩ | ⟨-, heq⟩ <;> rw [heq] at h ⊢
    · cases h
    · simp [isCrawled]

/-- A reference is taken to its own path, or to the place of an entry. -/
theorem path_canonize (s : Scopes) (base : Location) (r : Reference) :
    (s.canonize base r).canonical.path = r.path ∨
      ∃ e ∈ s.places, (s.canonize base r).canonical.path = e.2.canonical.path := by
  unfold canonize
  dsimp only
  split
  · next l hl =>
    exact .inr ⟨_, mem_of_lookup hl, rfl⟩
  · refine .inl ?_
    split <;> rfl

end Scopes

/-! ## Moves -/

namespace Resolver

/-- A document is asked for, or one that is known is crawled. -/
inductive Move (r : Resolver) : Resolver → Prop
  | fetch (a : Address) : Move r { r with store := (r.store.get a).2 }
  | crawl {a : Address} {v : Json} (h : r.store.find? a = some v) :
      Move r { r with scopes := (r.scopes.addDocument v a).2 }

/-- What becomes of a resolver. -/
abbrev Later : Resolver → Resolver → Prop := Relation.ReflTransGen Move

variable {r r' : Resolver} {a : Address} {v w : Json} {l l' : Location} {ref : Reference}

theorem Later.find? (h : r.Later r') (hv : r.store.find? a = some v) :
    r'.store.find? a = some v := by
  induction h with
  | refl => exact hv
  | tail _ hmove ih =>
    cases hmove with
    | fetch b => exact Store.find?_get ih b
    | crawl => exact ih

theorem Later.isCrawled (h : r.Later r') (ha : r.scopes.isCrawled a = true) :
    r'.scopes.isCrawled a = true := by
  induction h with
  | refl => exact ha
  | tail _ hmove ih =>
    cases hmove with
    | fetch => exact ih
    | crawl => exact Scopes.isCrawled_addDocument ih _ _

/-- The location stands for the value: it has an address, the document known there was crawled,
    and its path leads to the value in that document. -/
def Shows (r : Resolver) (l : Location) (v : Json) : Prop :=
  ∃ a doc, l.canonical.address = some a ∧ r.store.find? a = some doc ∧
    r.scopes.isCrawled a = true ∧ l.canonical.lookup doc = .ok v

theorem Shows.later (h : r.Shows l v) (hr : r.Later r') : r'.Shows l v := by
  obtain ⟨a, doc, ha, hdoc, hcrawled, hv⟩ := h
  exact ⟨a, doc, ha, hr.find? hdoc, hr.isCrawled hcrawled, hv⟩

/-- **One canonical reference stands for one schema**, then and later. -/
theorem Shows.eq_of_canonical_eq (h : r.Shows l v) (hr : r.Later r') (h' : r'.Shows l' w)
    (hl : l.canonical = l'.canonical) : v = w := by
  obtain ⟨a, doc, ha, hdoc, -, hv⟩ := h.later hr
  obtain ⟨a', doc', ha', hdoc', -, hw⟩ := h'
  rw [← hl] at ha' hw
  cases ha.symm.trans ha'
  cases hdoc.symm.trans hdoc'
  rw [hv] at hw
  exact Except.ok.inj hw

/-- A reference leads to a value that is shown, by its own path or by that of an entry. -/
structure Finds (r : Resolver) (ref : Reference) (l : Location) (v : Json) : Prop where
  shows : r.Shows l v
  path_cases : l.canonical.path = ref.path ∨
    ∃ e ∈ r.scopes.places, l.canonical.path = e.2.canonical.path

/-! ## Resolving -/

variable {P : ConversionError → Prop}

theorem passes_document? : Passes Move P (document? a) r fun v r' =>
    ∀ w, v = some w → r'.store.find? a = some w := by
  refine ⟨rfl, .single (.fetch a), fun e s' he => ?_, fun v r' hv w hw => ?_⟩
  · cases he
  · cases hv
    exact Store.find?_of_get hw

theorem passes_crawl (hP : ∀ e, e.Plain → P e) (h : r.store.find? a = some v) :
    Passes Move P (crawl v a) r fun _ r' =>
      r'.store.find? a = some v ∧ r'.scopes.isCrawled a = true := by
  refine ⟨rfl, .single (.crawl h), fun e s' he => ?_, fun first r' hfirst => ?_⟩
  · have herror : (r.scopes.addDocument v a).1 = .error e := congrArg Prod.fst he
    by_cases ha : r.scopes.isCrawled a = true
    · rw [Scopes.addDocument_of_isCrawled ha] at herror
      cases herror
    · rcases Scopes.addDocument_of_not_isCrawled (v := v) ha with ⟨e', hcrawl, heq⟩ | ⟨-, heq⟩ <;>
        rw [heq] at herror <;> cases herror
      exact hP _ (plain_entries hcrawl)
  · obtain rfl := congrArg Prod.snd hfirst
    exact ⟨h, Scopes.isCrawled_of_addDocument (congrArg Prod.fst hfirst)⟩

/-- **An attempt asks for documents and crawls them, and shows what it finds.** -/
theorem passes_attempt (hP : ∀ e, e.Ordinary → P e) (fetchBase lookupBase : Location)
    (ref : Reference) (retries : Nat) : Passes Move P (attempt fetchBase lookupBase ref retries) r
      fun x r' => ∀ v, x.1 = some v → r'.Finds ref x.2 v := by
  induction retries using Nat.strongRecOn generalizing r with
  | ind retries ih =>
  rw [attempt.eq_def]
  refine (Passes.get (Q := fun _ _ => True) trivial).bind fun known r₁ _ _ => ?_
  dsimp only
  split
  · exact Passes.throw (hP _ fun _ h => by cases h)
  · next a ha =>
    refine passes_document?.bind fun doc r₂ _ hdoc => ?_
    cases doc with
    | none => exact Passes.pure fun _ h => by cases h
    | some doc =>
      refine (passes_crawl (fun e he => hP e he.1) (hdoc doc rfl)).bind
        fun first r₃ _ ⟨hfind, hcrawled⟩ => ?_
      cases first with
      | true =>
        rw [if_pos rfl]
        cases retries with
        | zero => exact Passes.throw (hP _ fun _ h => by cases h)
        | succ n => exact ih n (Nat.lt_succ_self n)
      | false =>
        rw [if_neg Bool.false_ne_true]
        refine (Passes.get (Q := fun known r' => r₃ = known ∧ r₃ = r') ⟨rfl, rfl⟩).bind ?_
        rintro _ _ - ⟨rfl, rfl⟩
        refine (Passes.lift (Q := fun fragment r' => r₃ = r' ∧ _ = Except.ok fragment)
          (fun e he => hP e (plain_lookup he).1) fun fragment h => ⟨rfl, h⟩).bind ?_
        rintro fragment _ - ⟨rfl, hlookup⟩
        refine Passes.pure fun v hv => ?_
        cases hv
        exact ⟨⟨a, doc, rfl, hfind, hcrawled, hlookup⟩, Scopes.path_canonize _ _ _⟩

theorem passes_resolveTwice (hP : ∀ e, e.Ordinary → P e) (base : Location) (ref : Reference) :
    Passes Move P (resolveTwice base ref) r
      fun x r' => ∀ v, x.1 = some v → r'.Finds ref x.2 v := by
  unfold resolveTwice
  refine (passes_attempt hP base base ref 1).bind fun x r' _ hx => ?_
  split
  · exact Passes.pure hx
  · exact passes_attempt hP _ base ref 1

/-- **So does resolving a reference.** -/
theorem passes_resolve (hP : ∀ e, e.Ordinary → P e) (base : Location) (ref : Reference) :
    Passes Move P (resolve base ref) r fun x r' => r'.Finds ref x.2 x.1 := by
  unfold resolve
  refine (passes_resolveTwice hP base ref).bind fun x r' _ hx => ?_
  obtain ⟨v, l⟩ := x
  cases v with
  | none => exact Passes.throw (hP _ fun _ h => by cases h)
  | some v => exact Passes.pure (hx v rfl)

/-- **And resolving one from outside.** -/
theorem passes_resolveTopLevel (hP : ∀ e, e.Ordinary → P e) (ref : Reference) :
    Passes Move P (resolveTopLevel ref) r fun x r' => r'.Finds ref x.2 x.1 := by
  unfold resolveTopLevel
  refine (passes_resolveTwice hP _ _).bind fun x r' _ hx => ?_
  obtain ⟨v, l⟩ := x
  cases v with
  | none => exact Passes.throw (hP _ fun _ h => by cases h)
  | some v => exact Passes.pure ⟨(hx v rfl).shows, (hx v rfl).path_cases⟩

/-- Fetching a document ahead of time takes the same steps. -/
theorem passes_addDocument (hP : ∀ e, e.Ordinary → P e) (a : Address) :
    Passes Move P (addDocument a) r fun _ _ => True := by
  unfold addDocument
  refine passes_document?.bind fun doc r₁ _ hdoc => ?_
  cases doc with
  | none => exact Passes.pure trivial
  | some doc =>
    exact (passes_crawl (fun e he => hP e he.1) (hdoc doc rfl)).bind
      fun _ _ _ _ => Passes.pure trivial

end Resolver

end SchemaTypes

/-
  Pointers into a document that was crawled.

  A reference that is a path alone is taken relative to the `$id` of the root.  Where no other
  identifier lies on the way, it is found in the index; elsewhere it is looked up in the document
  itself, and the scope of the target is lost.

  * `attempt_of_find`, `attempt_of_none`: what an attempt finds in a known document, and where
    there is none;
  * `resolve_pointer`: the location that a pointer from the root of a document leads to;
  * `pointer_regains_iff`: when the target of a pointer has the scope that the crawl gave it.
-/
import SchemaTypes.Proofs.Crawling
import SchemaTypes.Proofs.Resolving
import SchemaTypes.Proofs.Retrieval

namespace SchemaTypes

/-- With its own `$id` an object at the location is reached by the reference that it has in its
    document, and counts as identified. -/
def Location.Regains (l : Location) (fields : Json.Fields) (outer : Option Reference) : Prop :=
  ∃ inner, l.withId (fields.lookup "$id") = .ok inner ∧ inner.hasId = true ∧
    some inner.reached = Json.identify outer fields

/-- No document is known under the address, and none can be fetched. -/
def Store.Lacks (s : Store) (a : Address) : Prop :=
  s.find? a = none ∧ ∀ n, ∃ e, s.fetcher n a = .error e

theorem Store.Lacks.get {s : Store} {a : Address} (h : s.Lacks a) :
    s.get a = (none, { s with asked := a :: s.asked }) := by
  obtain ⟨e, he⟩ := h.2 s.fetchCount
  unfold Store.get
  simp only [h.1, he]

namespace Resolver

/-! ## Attempts -/

section

variable {r : Resolver} {fetchBase lookupBase : Location} {ref : Reference} {a : Address}

theorem run_get : (get : ResolverM Resolver).run r = (.ok r, r) := rfl

theorem run_document? : (document? a).run r =
    (.ok (r.store.get a).1, { r with store := (r.store.get a).2 }) := rfl

theorem run_crawl (v : Json) : (crawl v a).run r =
    ((r.scopes.addDocument v a).1, { r with scopes := (r.scopes.addDocument v a).2 }) := rfl

/-- In a known document that was crawled, the path is looked up. -/
theorem attempt_of_find {doc v : Json} {found : Location}
    (ha : (r.scopes.canonize fetchBase ref).canonical.address = some a)
    (hfind : r.store.find? a = some doc) (hcrawled : r.scopes.isCrawled a = true)
    (hfound : r.scopes.canonize lookupBase ref = found)
    (hv : (⟨some a, found.canonical.path⟩ : Reference).lookup doc = .ok v) (retries : Nat) :
    (attempt fetchBase lookupBase ref retries).run r =
      (.ok (some v, { found with canonical := ⟨some a, found.canonical.path⟩ }), r) := by
  rw [attempt.eq_def, run_bind, run_get]
  dsimp only
  simp only [ha]
  rw [run_bind, run_document?, Store.get_of_find hfind]
  dsimp only
  rw [run_bind, run_crawl, Scopes.addDocument_of_isCrawled hcrawled]
  simp only [Bool.false_eq_true, if_false]
  rw [run_bind, run_get]
  simp only [hfound, hv]
  rfl

/-- Without a document, the location is all there is. -/
theorem attempt_of_none {l : Location} (hl : r.scopes.canonize fetchBase ref = l)
    (ha : l.canonical.address = some a) (hlacks : r.store.Lacks a) (retries : Nat) :
    (attempt fetchBase lookupBase ref retries).run r =
      (.ok (none, l), { r with store := { r.store with asked := a :: r.store.asked } }) := by
  rw [attempt.eq_def, run_bind, run_get]
  dsimp only
  simp only [hl, ha]
  rw [run_bind, run_document?, hlacks.get]
  rfl

end

/-! ## Pointers -/

/-- One document is known and was crawled, and no other was. -/
structure Knows (r : Resolver) (a : Address) (doc : Json) : Prop where
  find : r.store.find? a = some doc
  crawl : Scopes.empty.addDocument doc a = (.ok true, r.scopes)
  keysDistinct : doc.KeysDistinct
  size_le : doc.size ≤ UInt64.size

variable {r : Resolver} {a u : Address} {doc : Json} {ks : List String} {fields : Json.Fields}
  {outer : Option Reference} {ref root : Reference}

theorem Knows.isCrawled (h : r.Knows a doc) : r.scopes.isCrawled a = true := by
  have hcrawled := (Scopes.addDocument_empty h.crawl).2.2
  simp [Scopes.isCrawled, hcrawled]

/-- The pointer that keys make. -/
def pointer (ks : List String) : Reference := ⟨none, .root :: ks.map .key⟩

/-- The location of the root of a document, after its `$id`. -/
def rootOf (a : Address) (root : Reference) : Location := Scopes.locate a [] (some root)

/-- The location that a pointer leads to, without the scope of the target. -/
def unscoped (a : Address) (ks : List String) : Location :=
  ⟨⟨some a, .root :: ks.map .key⟩, pointer ks, false⟩

theorem canonize_pointer (base : Location) (hu : base.reached.address = some u) :
    r.scopes.canonize base (pointer ks) =
      (r.scopes.places.lookup ⟨some u, .root :: ks.map .key⟩).getD (unscoped u ks) := by
  have hreached : (pointer ks).resolve (some base.reached) = ⟨some u, .root :: ks.map .key⟩ := by
    simp [pointer, Reference.resolve, hu]
  unfold Scopes.canonize
  simp only [hreached]
  split
  · next l hl => rw [hl, Option.getD_some]
  · next hl =>
    rw [hl, Option.getD_none]
    rfl

/-- A pointer whose target is not in the index is taken in the document that the address of the
    root stands for, or else in the document itself. -/
theorem resolveTwice_pointer (h : r.Knows a doc) (hu : root.address = some u)
    (haddress : u = a ∨ r.store.Lacks u)
    (hnone : r.scopes.places.lookup ⟨some u, .root :: ks.map .key⟩ = none)
    (hat : doc.At ks (.object fields) outer) :
    ∃ r', (resolveTwice (rootOf a root) (pointer ks)).run r =
      (.ok (some (.object fields), unscoped a ks), r') := by
  have hfound : r.scopes.canonize (rootOf a root) (pointer ks) = unscoped u ks := by
    rw [canonize_pointer (rootOf a root) hu, hnone, Option.getD_none]
  have hlookup : (⟨some a, (unscoped u ks).canonical.path⟩ : Reference).lookup doc =
      .ok (.object fields) := hat.lookup_eq h.keysDistinct h.size_le rfl _
  unfold resolveTwice
  rcases haddress with rfl | hlacks
  · refine ⟨r, ?_⟩
    rw [run_bind, attempt_of_find (congrArg (·.canonical.address) hfound) h.find h.isCrawled hfound
      hlookup]
    rfl
  · -- without that document, the base is taken to be in the document itself
    let other : Location := ⟨(rootOf a root).canonical, ⟨some a, root.path⟩, true⟩
    have haddress : (r.scopes.canonize other (pointer ks)).canonical.address = some a := by
      rw [canonize_pointer other rfl]
      cases hl : r.scopes.places.lookup ⟨some a, .root :: ks.map .key⟩ with
      | none => rfl
      | some l =>
        obtain ⟨ks', fields', outer', -, rfl, -⟩ := Scopes.at_of_lookup h.crawl hl
        rfl
    have hsecond := attempt_of_find
      (r := { r with store := { r.store with asked := u :: r.store.asked } }) haddress h.find
      h.isCrawled hfound hlookup 1
    rw [run_bind, attempt_of_none hfound rfl hlacks]
    exact ⟨_, hsecond⟩

/-- **What a pointer from the root of a document leads to**: the object at its keys, with its place
    in the document and the scope it has there if its reference follows from that of the root
    alone, and without a scope otherwise. -/
theorem resolve_pointer (h : r.Knows a doc) (hu : root.address = some u)
    (haddress : u = a ∨ r.store.Lacks u) (hat : doc.At ks (.object fields) outer)
    (honly : Scopes.IsOnly doc ks ⟨some u, .root :: ks.map .key⟩) :
    ∃ l r', (resolve (rootOf a root) (pointer ks)).run r = (.ok (.object fields, l), r') ∧
      l = if Json.identify outer fields = some ⟨some u, .root :: ks.map .key⟩ then
        Scopes.locate a ks outer else unscoped a ks := by
  split
  · next hr =>
    have hplace := Scopes.lookup_of_isOnly h.keysDistinct h.crawl hat hr honly
    have hfound : r.scopes.canonize (rootOf a root) (pointer ks) = Scopes.locate a ks outer := by
      rw [canonize_pointer (rootOf a root) hu, hplace, Option.getD_some]
    have hattempt := attempt_of_find (congrArg (·.canonical.address) hfound) h.find h.isCrawled
      hfound (hat.lookup_eq h.keysDistinct h.size_le rfl _) 1
    refine ⟨_, r, ?_, rfl⟩
    unfold resolve resolveTwice
    rw [run_bind, run_bind, hattempt]
    rfl
  · next hr =>
    have hnone : r.scopes.places.lookup ⟨some u, .root :: ks.map .key⟩ = none := by
      refine Option.eq_none_iff_forall_ne_some.2 fun l hl => hr ?_
      obtain ⟨ks', fields', outer', hat', -, hr', -⟩ := Scopes.at_of_lookup h.crawl hl
      obtain rfl := honly ks' fields' outer' hat' hr'
      obtain ⟨heq, rfl⟩ := hat.unique h.keysDistinct hat'
      cases heq
      exact hr'
    obtain ⟨r', hr'⟩ := resolveTwice_pointer h hu haddress hnone hat
    refine ⟨_, r', ?_, rfl⟩
    unfold resolve
    rw [run_bind, hr']
    rfl

/-! ## Scopes of targets -/

/-- Where the index has the target, its scope is that of the crawl. -/
theorem regains_locate (h : r.Knows a doc) (hat : doc.At ks (.object fields) outer)
    {ρ : Reference} (hr : Json.identify outer fields = some ρ) :
    (Scopes.locate a ks outer).Regains fields outer := by
  obtain ⟨herror, -, -⟩ := Scopes.addDocument_empty h.crawl
  obtain ⟨inner, hid, -⟩ :=
    Scopes.mem_entries_of_visits (Scopes.visits_of_at herror hat) herror
  obtain rfl := Scopes.withId_locate hid
  refine ⟨_, hid, ?_, ?_⟩ <;> simp [Scopes.locate, hr]

/-- Without its scope, an object must have an identifier of its own that has an address and does
    not depend on the ones around it. -/
theorem regains_unscoped_iff : (unscoped a ks).Regains fields outer ↔
    ∃ text, fields.lookup "$id" = some (.string text) ∧
      (Reference.parse text).address.isSome = true ∧
      (Reference.parse text).resolve outer = Reference.parse text := by
  by_cases hid : ∃ text, fields.lookup "$id" = some (.string text)
  · obtain ⟨text, htext⟩ := hid
    have hwith : (unscoped a ks).withId (fields.lookup "$id") =
        if (Reference.parse text).address.isNone then
          .error (.idMustHaveAddress (unscoped a ks) text)
        else .ok ⟨(unscoped a ks).canonical, Reference.parse text, true⟩ := by
      rw [htext]
      rfl
    unfold Location.Regains
    rw [Json.identify_of_hasId htext, hwith]
    constructor
    · rintro ⟨inner, hinner, -, hreached⟩
      split at hinner
      · cases hinner
      · next haddress =>
        cases hinner
        refine ⟨text, htext, ?_, (Option.some.inj hreached).symm⟩
        simpa [Option.isSome_iff_ne_none] using haddress
    · rintro ⟨text', htext', haddress, hresolve⟩
      cases htext.symm.trans htext'
      rw [if_neg (by simpa [Option.isSome_iff_ne_none] using haddress)]
      exact ⟨_, rfl, rfl, congrArg some hresolve.symm⟩
  · constructor
    · rintro ⟨inner, hinner, hhas, -⟩
      rw [Location.withId_of_forall_ne fun text ht => hid ⟨text, ht⟩] at hinner
      cases hinner
      cases hhas
    · rintro ⟨text, htext, -⟩
      exact absurd ⟨text, htext⟩ hid

/-- No object on the way from the root to a value, the root apart, has an identifier. -/
def RootIdOnly (doc : Json) (ks : List String) : Prop :=
  ∀ ks' fields outer, ks' ≠ [] → ks' <+: ks → doc.At ks' (.object fields) outer →
    ¬Json.HasId fields

/-- Without other identifiers the reference of a value follows from that of the root. -/
theorem outer_eq_of_rootIdOnly {rootFields : Json.Fields} {text : String} {v : Json}
    (hid : rootFields.lookup "$id" = some (.string text))
    (hat : (Json.object rootFields).At ks v outer)
    (honly : RootIdOnly (.object rootFields) ks) :
    ks = [] ∧ v = .object rootFields ∧ outer = none ∨
      ks ≠ [] ∧ outer = some ((Reference.parse text).push ks) := by
  have hpush : ∀ ks k, ((Reference.parse text).push ks).push [k] =
      (Reference.parse text).push (ks ++ [k]) := by
    intro ks k
    simp [Reference.push, Reference.append]
  have hbefore : ∀ {ks k}, RootIdOnly (.object rootFields) (ks ++ [k]) →
      RootIdOnly (.object rootFields) ks := by
    intro ks k h ks' fields' outer' hne hpre
    exact h ks' fields' outer' hne (hpre.trans (List.prefix_append ..))
  induction hat with
  | root => exact .inl ⟨rfl, rfl, rfl⟩
  | @item ks items outer i v hat hi ih =>
    refine .inr ⟨by simp, ?_⟩
    rcases ih (hbefore honly) with ⟨-, hv, -⟩ | ⟨-, rfl⟩
    · cases hv
    · exact congrArg some (hpush ks _)
  | @field ks fields outer k v hat hk ih =>
    refine .inr ⟨by simp, ?_⟩
    rcases ih (hbefore honly) with ⟨rfl, hv, rfl⟩ | ⟨hne, rfl⟩
    · cases hv
      rw [Json.identify_of_hasId hid, Scopes.resolve_none]
      rfl
    · have hnot : ¬Json.HasId fields := honly ks fields _ hne (List.prefix_append ..) hat
      rw [Json.identify_of_not_hasId hnot]
      exact congrArg some (hpush ks k)

theorem identify_of_rootIdOnly {rootFields : Json.Fields} {text : String}
    (hid : rootFields.lookup "$id" = some (.string text))
    (hat : (Json.object rootFields).At ks (.object fields) outer)
    (honly : RootIdOnly (.object rootFields) ks) :
    Json.identify outer fields = some ((Reference.parse text).push ks) := by
  rcases outer_eq_of_rootIdOnly hid hat honly with ⟨rfl, hv, rfl⟩ | ⟨hne, rfl⟩
  · cases hv
    rw [Json.identify_of_hasId hid, Scopes.resolve_none]
    simp [Reference.push, Reference.append]
  · exact Json.identify_of_not_hasId (honly ks fields _ hne (List.prefix_refl ks) hat)

/-- **When the target of a pointer has the scope that the crawl gave it.**  In a document whose
    root is identified, a pointer from the root leads to the object at its keys.  The object
    regains its scope just if its reference follows from that of the root alone, as it does
    where no other identifier is on the way, or if its own identifier stands for itself. -/
theorem pointer_regains_iff {rootFields : Json.Fields} {text : String}
    (h : r.Knows a (.object rootFields)) (hid : rootFields.lookup "$id" = some (.string text))
    (hu : (Reference.parse text).address = some u) (haddress : u = a ∨ r.store.Lacks u)
    (hat : (Json.object rootFields).At ks (.object fields) outer)
    (honly : Scopes.IsOnly (.object rootFields) ks ⟨some u, .root :: ks.map .key⟩) :
    ∃ l r', (resolve (rootOf a (Reference.parse text)) (pointer ks)).run r =
        (.ok (.object fields, l), r') ∧
      l.canonical = ⟨some a, .root :: ks.map .key⟩ ∧
      (l.Regains fields outer ↔
        Json.identify outer fields = some ⟨some u, .root :: ks.map .key⟩ ∨
        ∃ own, fields.lookup "$id" = some (.string own) ∧
          (Reference.parse own).address.isSome = true ∧
          (Reference.parse own).resolve outer = Reference.parse own) ∧
      ((Reference.parse text).isRoot = true → RootIdOnly (.object rootFields) ks →
        l.Regains fields outer) := by
  obtain ⟨l, r', hrun, hl⟩ := resolve_pointer h hu haddress hat honly
  have hiff : l.Regains fields outer ↔
      Json.identify outer fields = some ⟨some u, .root :: ks.map .key⟩ ∨
      ∃ own, fields.lookup "$id" = some (.string own) ∧
        (Reference.parse own).address.isSome = true ∧
        (Reference.parse own).resolve outer = Reference.parse own := by
    split at hl
    · next hr =>
      rw [hl]
      exact iff_of_true (regains_locate h hat hr) (.inl hr)
    · next hr =>
      rw [hl, regains_unscoped_iff, or_iff_right hr]
  refine ⟨l, r', hrun, ?_, hiff, fun hroot hnone => hiff.2 (.inl ?_)⟩
  · rw [hl]
    split <;> rfl
  · have hpath : (Reference.parse text).path = [.root] := by simpa [Reference.isRoot] using hroot
    rw [identify_of_rootIdOnly hid hat hnone]
    simp [Reference.push, Reference.append, hu, hpath]

/-- The document of a shelf, crawled. -/
def shelfOnly : Resolver :=
  ⟨⟨[(.relative "shelf.json", Scopes.shelf)], [], .nothing⟩, Scopes.shelfCrawl.2⟩

theorem knows_shelfOnly : shelfOnly.Knows (.relative "shelf.json") Scopes.shelf where
  find := rfl
  crawl := Scopes.shelfCrawl_eq
  keysDistinct := Scopes.keysDistinct_shelf
  size_le := by decide

theorem lacks_shelfOnly : shelfOnly.store.Lacks (.parse "x:/shelf") :=
  ⟨by decide +kernel, fun _ => ⟨_, rfl⟩⟩

/-- The label of the shelf has no identifier on its way, and so its scope. -/
theorem pointer_regains_label : ∃ l r',
    (resolve (rootOf (.relative "shelf.json") (.parse "x:/shelf")) (pointer ["label"])).run
      shelfOnly = (.ok (.object [], l), r') ∧
    l.Regains [] (some ((Reference.parse "x:/shelf").push ["label"])) := by
  have hlabel : Scopes.shelf.At ["label"] (.object []) _ := .field .root (.tail _ (.head _))
  have honly : Scopes.IsOnly Scopes.shelf ["label"]
      ⟨some (.parse "x:/shelf"), [.root, .key "label"]⟩ :=
    Scopes.isOnly_of_entries (.relative "shelf.json") rfl (by decide +kernel)
  obtain ⟨l, r', hrun, -, hiff, -⟩ :=
    pointer_regains_iff knows_shelfOnly rfl rfl (.inr lacks_shelfOnly) hlabel honly
  exact ⟨l, r', hrun, hiff.2 (.inl rfl)⟩

/-- The box has an identifier of its own, and its lid loses it: not every pointer leads to an
    object with the scope that the crawl gave it. -/
theorem not_forall_regains :
    ¬∀ (r : Resolver) (a u : Address) (rootFields fields : Json.Fields) (text : String)
      (ks : List String) (outer : Option Reference), r.Knows a (.object rootFields) →
      rootFields.lookup "$id" = some (.string text) →
      (Reference.parse text).address = some u → u.isAbsolute = true →
      (Reference.parse text).isRoot = true → r.store.Lacks u →
      (Json.object rootFields).At ks (.object fields) outer →
      Scopes.IsOnly (.object rootFields) ks ⟨some u, .root :: ks.map .key⟩ →
      ∃ l r', (resolve (rootOf a (Reference.parse text)) (pointer ks)).run r =
        (.ok (.object fields, l), r') ∧ l.Regains fields outer := by
  intro h
  have hbox : Scopes.shelf.At ["box"] _ _ := .field .root (.tail _ (.tail _ (.head _)))
  have hlid : Scopes.shelf.At ["box", "lid"] (.object []) _ := .field hbox (.tail _ (.head _))
  have honly : Scopes.IsOnly Scopes.shelf ["box", "lid"]
      ⟨some (.parse "x:/shelf"), [.root, .key "box", .key "lid"]⟩ :=
    Scopes.isOnly_of_entries (.relative "shelf.json") rfl (by decide +kernel)
  obtain ⟨l, r', hrun, hregains⟩ := h shelfOnly _ _ _ _ _ _ _ knows_shelfOnly rfl rfl rfl
    (by decide +kernel) lacks_shelfOnly hlid honly
  have hroot : (Reference.parse "x:/shelf").address = some (.parse "x:/shelf") := rfl
  obtain ⟨l', r'', hrun', hl⟩ :=
    resolve_pointer knows_shelfOnly hroot (.inr lacks_shelfOnly) hlid honly
  obtain rfl : l = l' := by
    rw [hrun] at hrun'
    cases hrun'
    rfl
  rw [if_neg (by decide +kernel)] at hl
  subst hl
  obtain ⟨own, hown, -⟩ := regains_unscoped_iff.1 hregains
  cases hown

end Resolver

end SchemaTypes

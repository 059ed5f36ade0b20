/-
  References through the `$id` of a document.

  * `Resolver.Indexed`: whatever the index holds is an object of a known document, and it holds all
    that a crawl of each crawled document enters; so it is after any calls (`indexed_afterCalls`);
  * `Identified`: a schema of a crawled document whose reference follows from the `$id` of the root;
  * `resolve_object`, `resolve_bool`: what the absolute reference to it leads to;
  * `resolve_identified`: it leads to the schema, from anywhere, if that is an object, and fails if
    it is a boolean, since a crawl enters objects alone.
-/
import SchemaTypes.Proofs.Fetching
import SchemaTypes.Proofs.Pointers

namespace SchemaTypes.Resolver

open Scopes (locate entries rootLocation)

variable {r r' : Resolver} {a u : Address} {doc v : Json} {ks : List String}
  {outer : Option Reference} {rootFields : Json.Fields} {text : String}

/-! ## The index after any calls -/

/-- The index holds objects of known documents, and those of every document that was crawled. -/
structure Indexed (r : Resolver) : Prop where
  object : ∀ e ∈ r.scopes.places, ∃ a doc ks fields outer, r.store.find? a = some doc ∧
    doc.At ks (.object fields) outer ∧ e.2 = locate a ks outer ∧
      Json.identify outer fields = some e.1
  entries : ∀ a, r.scopes.isCrawled a = true → ∃ doc, r.store.find? a = some doc ∧
    (entries (rootLocation a) doc).error = none ∧
    (entries (rootLocation a) doc).entries ⊆ r.scopes.places

theorem indexed_ofFetcher (fetcher : Fetcher) : (ofFetcher fetcher).Indexed :=
  ⟨fun _ he => absurd he List.not_mem_nil, fun _ ha => (by cases ha)⟩

theorem Indexed.move (h : r.Indexed) (hmove : r.Move r') : r'.Indexed := by
  cases hmove with
  | fetch b =>
    refine ⟨fun e he => ?_, fun a ha => ?_⟩
    · obtain ⟨a, doc, ks, fields, outer, hfind, hplace⟩ := h.object e he
      exact ⟨a, doc, ks, fields, outer, Store.find?_get hfind b, hplace⟩
    · obtain ⟨doc, hfind, hentries⟩ := h.entries a ha
      exact ⟨doc, Store.find?_get hfind b, hentries⟩
  | @crawl b v hfind =>
    by_cases hb : r.scopes.isCrawled b = true
    · rw [Scopes.addDocument_of_isCrawled hb]
      exact h
    -- a crawl adds objects of the document alone, even if it fails
    have hobject : ∀ e ∈ (Scopes.entries (rootLocation b) v).entries.reverse ++ r.scopes.places,
        ∃ a doc ks fields outer, r.store.find? a = some doc ∧ doc.At ks (.object fields) outer ∧
          e.2 = locate a ks outer ∧ Json.identify outer fields = some e.1 := by
      intro e he
      rcases List.mem_append.1 he with he | he
      · obtain ⟨ks, fields, outer, hat, hloc, hid, -⟩ :=
          Scopes.at_of_mem_entries (List.mem_reverse.1 he)
        exact ⟨b, v, ks, fields, outer, hfind, hat, hloc, hid⟩
      · exact h.object e he
    have hkept : ∀ a, r.scopes.isCrawled a = true → ∃ doc, r.store.find? a = some doc ∧
        (Scopes.entries (rootLocation a) doc).error = none ∧
        (Scopes.entries (rootLocation a) doc).entries ⊆
          (Scopes.entries (rootLocation b) v).entries.reverse ++ r.scopes.places := by
      intro a ha
      obtain ⟨doc, hdoc, herror, hsub⟩ := h.entries a ha
      exact ⟨doc, hdoc, herror, List.subset_append_of_subset_right _ hsub⟩
    rcases Scopes.addDocument_of_not_isCrawled (v := v) hb with ⟨e, -, heq⟩ | ⟨herror, heq⟩ <;>
      rw [heq]
    · exact ⟨hobject, hkept⟩
    · refine ⟨hobject, fun a ha => ?_⟩
      have ha : a = b ∨ a ∈ r.scopes.crawled := by simpa [Scopes.isCrawled] using ha
      rcases ha with rfl | ha
      · exact ⟨v, hfind, herror, fun e he => List.mem_append_left _ (List.mem_reverse.2 he)⟩
      · exact hkept a (by simpa [Scopes.isCrawled] using ha)

theorem Indexed.later (h : r.Indexed) (hlater : r.Later r') : r'.Indexed := by
  induction hlater with
  | refl => exact h
  | tail _ hmove ih => exact ih.move hmove

theorem indexed_afterCalls (fetcher : Fetcher) (calls : List Call) :
    ((ofFetcher fetcher).afterCalls calls).Indexed :=
  (indexed_ofFetcher fetcher).later (later_afterCalls _ calls)

/-! ## What resolving comes to by its attempts -/

section

variable {base l l' : Location} {ref : Reference} {r₁ r₂ : Resolver}

theorem resolve_of_attempt (h : (attempt base base ref 1).run r = (.ok (some v, l), r₁)) :
    (resolve base ref).run r = (.ok (v, l), r₁) := by
  unfold resolve resolveTwice
  rw [run_bind, run_bind, h]
  rfl

theorem resolve_of_attempts (h : (attempt base base ref 1).run r = (.ok (none, l), r₁))
    (h' : (attempt { base with reached := { base.reached with address := base.canonical.address } }
      base ref 1).run r₁ = (.ok (none, l'), r₂)) :
    (resolve base ref).run r = (.error (.unavailable (blamed ref l') base.canonical), r₂) := by
  unfold resolve resolveTwice
  rw [run_bind, run_bind, h]
  dsimp only
  simp only [Option.isSome_none, Bool.false_eq_true, if_false]
  rw [h']
  rfl

end

/-! ## Schemas that are identified by the root -/

/-- The keys lead to a value of a document that was crawled, whose root has an absolute `$id` under
    which there is no document; and below the root no other identifier is on their way. -/
structure Identified (r : Resolver) (a u : Address) (rootFields : Json.Fields) (text : String)
    (ks : List String) (v : Json) : Prop where
  find : r.store.find? a = some (.object rootFields)
  isCrawled : r.scopes.isCrawled a = true
  keysDistinct : (Json.object rootFields).KeysDistinct
  size_le : (Json.object rootFields).size ≤ UInt64.size
  hasId : rootFields.lookup "$id" = some (.string text)
  parse_eq : Reference.parse text = ⟨some u, [.root]⟩
  isAbsolute : u.isAbsolute = true
  lacks : r.store.Lacks u
  at_keys : ∃ outer, (Json.object rootFields).At ks v outer
  rootIdOnly : RootIdOnly (.object rootFields) ks

/-- The place of a value in the document at an address. -/
def placeOf (a : Address) (ks : List String) : Reference := ⟨some a, .root :: ks.map .key⟩

/-- Whatever the index has under the reference is at the place. -/
def OnlyAt (r : Resolver) (ref place : Reference) : Prop :=
  ∀ e ∈ r.scopes.places, e.1 = ref → e.2.canonical = place

namespace Identified

variable (h : r.Identified a u rootFields text ks v)

include h

/-- An absolute reference is taken from anywhere as it is. -/
theorem canonize_eq (base : Location) : r.scopes.canonize base (placeOf u ks) =
    (r.scopes.places.lookup (placeOf u ks)).getD (unscoped u ks) := by
  have hresolve : ∀ b, u.resolve b = u := by
    intro b
    cases hu : u with
    | absolute url => rfl
    | relative path => cases hu ▸ h.isAbsolute
  have hreached : (placeOf u ks).resolve (some base.reached) = placeOf u ks := by
    unfold Reference.resolve placeOf
    cases hb : base.reached.address with
    | none => simp [hb]
    | some b => simp [hb, hresolve b]
  unfold Scopes.canonize
  dsimp only
  rw [hreached]
  split
  · next l hl => rw [hl, Option.getD_some]
  · next hl =>
    rw [hl, Option.getD_none]
    rfl

/-- An object is found in the index, and so in its document. -/
theorem resolve_object (hindexed : r.Indexed) {fields : Json.Fields} (hv : v = .object fields)
    (honly : r.OnlyAt (placeOf u ks) (placeOf a ks)) (base : Location) :
    ∃ l, (resolve base (placeOf u ks)).run r = (.ok (v, l), r) ∧ l.canonical = placeOf a ks := by
  subst hv
  obtain ⟨outer, hat⟩ := h.at_keys
  obtain ⟨doc, hfind, herror, hsub⟩ := hindexed.entries a h.isCrawled
  cases h.find.symm.trans hfind
  have hid : Json.identify outer fields = some (placeOf u ks) := by
    rw [identify_of_rootIdOnly h.hasId hat h.rootIdOnly, h.parse_eq]
    rfl
  obtain ⟨l, hl⟩ := Scopes.exists_lookup_of_mem (hsub (Scopes.mem_entries_of_at herror hat hid))
  have hcanonical : l.canonical = placeOf a ks := honly _ (mem_of_lookup hl) rfl
  have hfound : r.scopes.canonize base (placeOf u ks) = l := by
    rw [h.canonize_eq, hl, Option.getD_some]
  have hlookup : (⟨some a, l.canonical.path⟩ : Reference).lookup (.object rootFields) =
      .ok (.object fields) := by
    rw [hcanonical]
    exact hat.lookup_eq h.keysDistinct h.size_le rfl _
  have haddress : (r.scopes.canonize base (placeOf u ks)).canonical.address = some a := by
    rw [hfound, hcanonical]
    rfl
  refine ⟨_, resolve_of_attempt (attempt_of_find haddress h.find h.isCrawled hfound hlookup 1), ?_⟩
  rw [hcanonical]
  rfl

/-- A boolean is not in the index, and there is no document where its reference points. -/
theorem resolve_bool (hindexed : r.Indexed) {b : Bool} (hv : v = .bool b)
    (honly : r.OnlyAt (placeOf u ks) (placeOf a ks)) (base : Location) :
    ∃ r', (resolve base (placeOf u ks)).run r =
      (.error (.unavailable u.text base.canonical), r') := by
  subst hv
  obtain ⟨outer, hat⟩ := h.at_keys
  have hnone : r.scopes.places.lookup (placeOf u ks) = none := by
    refine Option.eq_none_iff_forall_ne_some.2 fun l hl => ?_
    have hmem := mem_of_lookup hl
    obtain ⟨a', doc, ks', fields, outer', hfind, hat', hloc, -⟩ := hindexed.object _ hmem
    have hcanonical : (locate a' ks' outer').canonical = placeOf a ks :=
      hloc ▸ honly _ hmem rfl
    obtain ⟨haddress, hpath⟩ := Reference.mk.inj hcanonical
    cases haddress
    cases h.find.symm.trans hfind
    obtain rfl := (List.map_inj_right fun _ _ => Step.key.inj).1 (List.cons.inj hpath).2
    cases (hat.unique h.keysDistinct hat').1
  have hfound : ∀ base, r.scopes.canonize base (placeOf u ks) = unscoped u ks := fun base => by
    rw [h.canonize_eq, hnone, Option.getD_none]
  have hlacks : ({ r.store with asked := u :: r.store.asked } : Store).Lacks u := h.lacks
  exact ⟨_, resolve_of_attempts (attempt_of_none (hfound base) rfl h.lacks 1)
    (attempt_of_none (r := ⟨{ r.store with asked := u :: r.store.asked }, r.scopes⟩) (hfound _) rfl
      hlacks 1)⟩

end Identified

/-- **What an absolute reference through the `$id` of the root leads to**, whatever the resolver was
    called for before and wherever the reference is written: an object at the keys is found, at its
    place in the document; a boolean is not, though it is a schema, and resolving fails. -/
theorem resolve_identified (fetcher : Fetcher) (calls : List Call)
    (h : ((ofFetcher fetcher).afterCalls calls).Identified a u rootFields text ks v)
    (honly : ((ofFetcher fetcher).afterCalls calls).OnlyAt (placeOf u ks) (placeOf a ks))
    (hv : v.isSchema = true) (base : Location) :
    ∃ result r', (resolve base ((Reference.parse text).push ks)).run
        ((ofFetcher fetcher).afterCalls calls) = (result, r') ∧
      ((∃ fields, v = .object fields) ∧
          (∃ l, result = .ok (v, l) ∧ l.canonical = placeOf a ks) ∨
        (∃ b, v = .bool b) ∧ result = .error (.unavailable u.text base.canonical)) := by
  have hindexed := indexed_afterCalls fetcher calls
  have hplace : (Reference.parse text).push ks = placeOf u ks := by
    rw [h.parse_eq]
    rfl
  rw [hplace]
  cases v with
  | object fields =>
    obtain ⟨l, hrun, hl⟩ := h.resolve_object hindexed rfl honly base
    exact ⟨_, _, hrun, .inl ⟨⟨fields, rfl⟩, l, rfl, hl⟩⟩
  | bool b =>
    obtain ⟨r', hrun⟩ := h.resolve_bool hindexed rfl honly base
    exact ⟨_, _, hrun, .inr ⟨⟨b, rfl⟩, rfl⟩⟩
  | _ => cases hv

/-- A document with an identifier at the root, an object and a boolean. -/
def ledger : Json :=
  .object [("$id", .string "x:/ledger"),
    ("definitions", .object [("entry", .object []), ("note", .bool true)])]

/-- Serves the document alone. -/
def ledgerOnly : Fetcher := .serving [(.relative "ledger.json", ledger)] .nothing

/-- The resolver that has crawled the document. -/
def ledgerCrawled : Resolver :=
  (ofFetcher ledgerOnly).afterCalls [.addDocument (.relative "ledger.json")]

theorem keysDistinct_ledger : ledger.KeysDistinct := by
  simp [ledger, Json.KeysDistinct, Json.FieldsKeysDistinct]

theorem lacks_ledgerCrawled : ledgerCrawled.store.Lacks (.parse "x:/ledger") := by
  have hfetcher : ledgerCrawled.store.fetcher = ledgerOnly := rfl
  refine ⟨by decide +kernel, fun n => ⟨.notRegistered "x:/ledger", ?_⟩⟩
  rw [hfetcher]
  rfl

theorem at_definitions : ∃ outer, ledger.At ["definitions"]
    (.object [("entry", .object []), ("note", .bool true)]) outer :=
  ⟨_, .field .root (.tail _ (.head _))⟩

/-- What the definitions are, the identifier of the root identifies them. -/
theorem identified_ledger {k : String} {v : Json}
    (hk : (k, v) ∈ [("entry", Json.object []), ("note", .bool true)]) :
    ledgerCrawled.Identified (.relative "ledger.json") (.parse "x:/ledger")
      [("$id", .string "x:/ledger"),
        ("definitions", .object [("entry", .object []), ("note", .bool true)])]
      "x:/ledger" ["definitions", k] v := by
  obtain ⟨outer, hdefinitions⟩ := at_definitions
  have hat : ledger.At ["definitions", k] v _ := .field hdefinitions hk
  refine ⟨rfl, by decide +kernel, keysDistinct_ledger, by decide, rfl, by decide +kernel,
    by decide +kernel, lacks_ledgerCrawled, ⟨_, hat⟩, fun ks fields outer' hne hpre hat' hid => ?_⟩
  obtain ⟨text, htext⟩ := hid
  simp only [List.prefix_cons_iff, List.prefix_nil] at hpre
  obtain rfl | ⟨_, rfl, rfl | ⟨_, rfl, rfl⟩⟩ := hpre
  · exact hne rfl
  · cases (hdefinitions.unique keysDistinct_ledger hat').1
    cases htext
  · obtain ⟨rfl, -⟩ := hat.unique keysDistinct_ledger hat'
    simp only [List.mem_cons, Prod.mk.injEq, Json.object.injEq, reduceCtorEq, and_false,
      List.not_mem_nil, or_false] at hk
    rw [hk.2] at htext
    cases htext

/-- A place in no document. -/
def nowhere : Location := .ofReference ⟨none, []⟩

theorem resolve_identified_entry : ∃ l r',
    (resolve nowhere ((Reference.parse "x:/ledger").push ["definitions", "entry"])).run
        ledgerCrawled = (.ok (.object [], l), r') ∧
      l.canonical = placeOf (.relative "ledger.json") ["definitions", "entry"] := by
  have honly : ledgerCrawled.OnlyAt (placeOf (.parse "x:/ledger") ["definitions", "entry"])
      (placeOf (.relative "ledger.json") ["definitions", "entry"]) := by
    unfold OnlyAt
    decide +kernel
  obtain ⟨result, r', hrun, ⟨-, l, rfl, hl⟩ | ⟨⟨b, hb⟩, -⟩⟩ :=
    resolve_identified ledgerOnly _ (identified_ledger (.head _)) honly rfl nowhere
  · exact ⟨l, r', hrun, hl⟩
  · cases hb

/-- The note is a schema and not found: not every schema below an identifier is reached by it. -/
theorem not_forall_identified_found :
    ¬∀ (fetcher : Fetcher) (calls : List Call) (a u : Address) (rootFields : Json.Fields)
      (text : String) (ks : List String) (v : Json) (base : Location),
      ((ofFetcher fetcher).afterCalls calls).Identified a u rootFields text ks v →
      ((ofFetcher fetcher).afterCalls calls).OnlyAt (placeOf u ks) (placeOf a ks) →
      v.isSchema = true →
      ∃ l r', (resolve base ((Reference.parse text).push ks)).run
          ((ofFetcher fetcher).afterCalls calls) = (.ok (v, l), r') ∧
        l.canonical.address = some a := by
  intro h
  have hnote := identified_ledger (.tail _ (.head _))
  have honly : ledgerCrawled.OnlyAt (placeOf (.parse "x:/ledger") ["definitions", "note"])
      (placeOf (.relative "ledger.json") ["definitions", "note"]) := by
    unfold OnlyAt
    decide +kernel
  obtain ⟨l, r', hrun, -⟩ := h ledgerOnly _ _ _ _ _ _ _ nowhere hnote honly rfl
  obtain ⟨r'', hfails⟩ := hnote.resolve_bool (indexed_afterCalls _ _) rfl honly nowhere
  cases hrun.symm.trans hfails

end SchemaTypes.Resolver

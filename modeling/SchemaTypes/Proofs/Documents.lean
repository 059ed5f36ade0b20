/-
  Documents that sources bring.

  Sources are added in turn, and some of them are refused.  An accepted source is entered under its
  URIs; if it brings a schema, that is kept for each of them, at the first variant of the address
  that is free.

  * `addSource_ok`, `addSource_error`: what a source adds that is accepted, and one that is refused;
  * `accepted_eq_filter`: a source is accepted for what it is, whatever was added before;
  * `addAll_spec`: so documents and sources only grow, and side by side;
  * `inline_documents_kept`: **no document takes the place of another one**;
  * `refused_sources_leave_flag`: **refused sources leave a run as it is but for its flag**, which
    can keep a schema text from being passed through (`not_forall_refused`).
-/
import SchemaTypes.Proofs.Registration
import SchemaTypes.Proofs.Variants
import SchemaTypes.Run

namespace SchemaTypes.SchemaInput

variable {i : SchemaInput} {s : Source} {ss : List Source} {e : SourceError} {v : Json}

/-! ## Single sources -/

/-- The value of a document, as it is given or as it is written in a text. -/
def valueOf? : SourceDocument → Option Json
  | .value v => some v
  | .text t => Json.parse? t

/-- The schema that a source brings, if it brings one that can be read. -/
def broughtBy? (s : Source) : Option Json :=
  s.document.bind fun d => (valueOf? d).filter Json.isSchema

/-- A source brings a schema, or else URIs. -/
def Acceptable (s : Source) : Prop :=
  (s.document = none → s.uris.isSome) ∧ (s.document.isSome → (broughtBy? s).isSome)

instance : DecidablePred Acceptable := fun _ => inferInstanceAs (Decidable (_ ∧ _))

/-- The document that is kept for a URI of a source. -/
def keptFor? (entry : SourceUri × Source) : Option (Address × Json) :=
  (broughtBy? entry.2).map fun v => (entry.1.address, v)

/-- A URI of a source as it is entered: with a variant of its address, and with the address itself
    where the source brings no document. -/
structure EnteredAs (entry entered : SourceUri × Source) : Prop where
  source_eq : entered.2 = entry.2
  fragment_eq : entered.1.fragment = entry.1.fragment
  address_eq : ∃ n, entered.1.address = entry.1.address.variant n ∧
    (entry.2.document = none → n = 0)

theorem EnteredAs.refl (entry : SourceUri × Source) : EnteredAs entry entry :=
  ⟨rfl, rfl, 0, rfl, fun _ => rfl⟩

/-- The URIs of a source, as they are written. -/
def written (s : Source) : List (SourceUri × Source) := s.sourceUris.map (·, s)

theorem readDocument_of_valueOf? {name : String} {d : SourceDocument} (hd : valueOf? d = some v) :
    readDocument name d =
      if v.isSchema then .ok v else .error (.load (.notASchema name v.typeName)) := by
  cases d with
  | value w =>
    obtain rfl := Option.some.inj hd
    rfl
  | text t =>
    rw [valueOf?] at hd
    rw [readDocument, documentOfText, hd]
    rfl

/-- **What is read of a document is its value**, if that is a schema. -/
theorem readDocument_eq_ok_iff {name : String} {d : SourceDocument} :
    readDocument name d = .ok v ↔ valueOf? d = some v ∧ v.isSchema := by
  cases hd : valueOf? d with
  | none =>
    cases d with
    | value w => cases hd
    | text t =>
      rw [valueOf?] at hd
      simp [readDocument, documentOfText, hd, Except.mapError, bind, Except.bind]
  | some w =>
    rw [readDocument_of_valueOf? hd]
    by_cases hschema : w.isSchema
    · rw [if_pos hschema]
      grind
    · rw [if_neg hschema]
      grind

theorem broughtBy?_eq_some_iff {d : SourceDocument} (hd : s.document = some d) :
    broughtBy? s = some v ↔ readDocument s.name d = .ok v := by
  rw [readDocument_eq_ok_iff, broughtBy?, hd, Option.bind_some, Option.filter_eq_some_iff]

theorem freeAddress_not_mem (documents : OrderedMap Address Json) (a : Address) :
    freeAddress documents a ∉ documents.keys := by
  obtain ⟨n, hn, hfree, -⟩ := freeAddress_spec documents a
  intro hmem
  obtain ⟨v, hv⟩ := OrderedMap.mem_keys_iff.1 hmem
  simp [← hn, OrderedMap.contains, hv] at hfree

/-- **A document is kept for each URI**, behind those that were kept before. -/
theorem keep_spec (hs : broughtBy? s = some v) (us : List SourceUri)
    (documents : OrderedMap Address Json) :
    List.Forall₂ EnteredAs (us.map (·, s)) ((keep v us documents).1.map (·, s)) ∧
      (keep v us documents).2.entries =
        documents.entries ++ ((keep v us documents).1.map (·, s)).filterMap keptFor? := by
  induction us generalizing documents with
  | nil => exact ⟨.nil, (List.append_nil _).symm⟩
  | cons u us ih =>
    obtain ⟨huris, hentries⟩ := ih (documents.insert (freeAddress documents u.address) v)
    obtain ⟨n, hn, -⟩ := freeAddress_spec documents u.address
    have hdocument : ¬s.document = none := by
      intro hnone
      simp [broughtBy?, hnone] at hs
    refine ⟨.cons ⟨rfl, rfl, n, hn, fun hnone => absurd hnone hdocument⟩ huris, ?_⟩
    rw [keep, hentries,
      OrderedMap.entries_insert_of_notMem (freeAddress_not_mem documents u.address)]
    simp [keptFor?, hs]

/-- What an accepted source adds: its URIs, and a document for each if it brings one. -/
theorem addSource_ok (h : (i.addSource s).1 = .ok ()) :
    ∃ added, List.Forall₂ EnteredAs (written s) added ∧
      (∀ entry ∈ added, entry.2.document.isSome → (broughtBy? entry.2).isSome) ∧
      (i.addSource s).2.sources = i.sources ++ added ∧
      (i.addSource s).2.documents.entries = i.documents.entries ++ added.filterMap keptFor? := by
  cases hd : s.document with
  | none =>
    have hnothing : (written s).filterMap keptFor? = [] := by
      simp [written, keptFor?, broughtBy?, hd]
    simp only [addSource, hd] at h ⊢
    split at h
    · cases h
    · next huris =>
      rw [if_neg huris]
      refine ⟨written s, List.forall₂_same.2 fun entry _ => .refl entry, ?_, rfl, ?_⟩
      · simp [written, hd]
      · rw [hnothing, List.append_nil]
        rfl
  | some d =>
    cases hv : readDocument s.name d with
    | error e => simp [addSource, hd, hv] at h
    | ok v =>
      have hs : broughtBy? s = some v := (broughtBy?_eq_some_iff hd).2 hv
      obtain ⟨huris, hentries⟩ := keep_spec hs s.sourceUris i.documents
      refine ⟨(keep v s.sourceUris i.documents).1.map (·, s), huris, by simp [hs], ?_⟩
      simp only [addSource, hd, hv]
      exact ⟨rfl, hentries⟩

/-- **A refused source leaves everything as it is but the flag**, which does not wait for the
    checks. -/
theorem addSource_error (h : (i.addSource s).1 = .error e) :
    (i.addSource s).2 = { i with hasOwnSchemas := i.hasOwnSchemas || !s.converted } := by
  cases hd : s.document with
  | none =>
    cases huris : s.uris.isNone with
    | true => simp [addSource, hd, huris]
    | false => simp [addSource, hd, huris] at h
  | some d =>
    cases hv : readDocument s.name d with
    | error e => simp [addSource, hd, hv]
    | ok v => simp [addSource, hd, hv] at h

/-- **Sources are accepted for what they are**, not for what is there already. -/
theorem addSource_eq_ok_iff : (i.addSource s).1 = .ok () ↔ Acceptable s := by
  cases hd : s.document with
  | none => cases huris : s.uris <;> simp [addSource, Acceptable, hd, huris]
  | some d =>
    cases hv : readDocument s.name d with
    | error e =>
      have hs : broughtBy? s = none :=
        Option.eq_none_iff_forall_ne_some.2 fun v hv' => by
          rw [broughtBy?_eq_some_iff hd, hv] at hv'
          cases hv'
      simp [addSource, Acceptable, hd, hv, hs]
    | ok v => simp [addSource, Acceptable, hd, hv, (broughtBy?_eq_some_iff hd).2 hv]

/-! ## Sources in turn -/

/-- Adds sources in turn, whether they are accepted or not. -/
def addAll (i : SchemaInput) (ss : List Source) : SchemaInput :=
  ss.foldl (fun i s => (i.addSource s).2) i

/-- The sources that are accepted when they are added in turn. -/
def accepted (i : SchemaInput) : List Source → List Source
  | [] => []
  | s :: ss =>
    match i.addSource s with
    | (.ok _, i) => s :: accepted i ss
    | (.error _, i) => accepted i ss

theorem addAll_cons (i : SchemaInput) (s : Source) (ss : List Source) :
    i.addAll (s :: ss) = (i.addSource s).2.addAll ss := rfl

theorem addAll_append (i : SchemaInput) (ss more : List Source) :
    i.addAll (ss ++ more) = (i.addAll ss).addAll more :=
  List.foldl_append

theorem accepted_cons_of_ok (h : (i.addSource s).1 = .ok ()) :
    i.accepted (s :: ss) = s :: accepted (i.addSource s).2 ss := by
  rw [accepted, ← Prod.mk.eta (p := i.addSource s), h]

theorem accepted_cons_of_error (h : (i.addSource s).1 = .error e) :
    i.accepted (s :: ss) = accepted (i.addSource s).2 ss := by
  rw [accepted, ← Prod.mk.eta (p := i.addSource s), h]

theorem accepted_eq_filter (i : SchemaInput) (ss : List Source) :
    i.accepted ss = ss.filter Acceptable := by
  induction ss generalizing i with
  | nil => rfl
  | cons s ss ih =>
    cases h : (i.addSource s).1 with
    | error e =>
      have hs : ¬Acceptable s := by rw [← addSource_eq_ok_iff (i := i), h]; nofun
      rw [accepted_cons_of_error h, ih, List.filter_cons_of_neg (by simpa using hs)]
    | ok _ =>
      have hs : Acceptable s := addSource_eq_ok_iff.1 h
      rw [accepted_cons_of_ok h, ih, List.filter_cons_of_pos (by simpa using hs)]

/-- **What sources add in turn**: the URIs of those that are accepted, and the documents that these
    bring, both in order and behind what was there. -/
theorem addAll_spec (i : SchemaInput) (ss : List Source) :
    ∃ added, List.Forall₂ EnteredAs ((i.accepted ss).flatMap written) added ∧
      (∀ entry ∈ added, entry.2.document.isSome → (broughtBy? entry.2).isSome) ∧
      (i.addAll ss).sources = i.sources ++ added ∧
      (i.addAll ss).documents.entries = i.documents.entries ++ added.filterMap keptFor? := by
  induction ss generalizing i with
  | nil => exact ⟨[], .nil, by simp, by simp [addAll], by simp [addAll]⟩
  | cons s ss ih =>
    obtain ⟨added, hentered, hread, hsources, hdocuments⟩ := ih (i.addSource s).2
    cases h : (i.addSource s).1 with
    | error e =>
      rw [accepted_cons_of_error h, addAll_cons]
      refine ⟨added, hentered, hread, ?_, ?_⟩
      · rw [hsources, addSource_error h]
      · rw [hdocuments, addSource_error h]
    | ok _ =>
      obtain ⟨added₁, hentered₁, hread₁, hsources₁, hdocuments₁⟩ := addSource_ok h
      rw [accepted_cons_of_ok h, addAll_cons, hsources, hdocuments, hsources₁, hdocuments₁]
      refine ⟨added₁ ++ added, List.rel_append hentered₁ hentered, ?_, ?_, ?_⟩
      · intro entry hentry
        rcases List.mem_append.1 hentry with hentry | hentry
        · exact hread₁ entry hentry
        · exact hread entry hentry
      · rw [List.append_assoc]
      · rw [List.filterMap_append, List.append_assoc]

/-! ## Documents that are kept -/

/-- **Documents never take each other's place.**  Whatever is kept already, the search for a free
    address ends with the first variant that is free.  Of any sources those are accepted that bring
    a schema, or else URIs, and these stand under all their URIs.  At the address of each URI of a
    source that brings a schema just that is kept: the value that was given, or the one that was
    written in the text.  No two such addresses are the same; and more sources change neither what
    is entered nor what is kept. -/
theorem inline_documents_kept (hsources : i.sources = []) (hdocuments : i.documents = ∅)
    (ss : List Source) :
    (∀ documents a, ∃ n, freeAddress documents a = a.variant n ∧
      documents.contains (a.variant n) = false ∧
      ∀ m < n, documents.contains (a.variant m) = true) ∧
    i.accepted ss = ss.filter Acceptable ∧
    List.Forall₂ EnteredAs ((i.accepted ss).flatMap written) (i.addAll ss).sources ∧
    (∀ entry ∈ (i.addAll ss).sources,
      (∀ v, entry.2.document = some (.value v) →
        (i.addAll ss).documents.get? entry.1.address = some v) ∧
      ∀ t, entry.2.document = some (.text t) → ∃ v, Json.parse? t = some v ∧
        (i.addAll ss).documents.get? entry.1.address = some v) ∧
    ((i.addAll ss).sources.Pairwise fun entry entry' =>
      entry.2.document.isSome → entry'.2.document.isSome →
        entry.1.address ≠ entry'.1.address) ∧
    ∀ more, (i.addAll ss).sources <+: (i.addAll (ss ++ more)).sources ∧
      (i.addAll ss).documents.entries <+: (i.addAll (ss ++ more)).documents.entries := by
  obtain ⟨added, hentered, hread, hadded, hkept⟩ := addAll_spec i ss
  rw [hsources, List.nil_append] at hadded
  rw [hdocuments] at hkept
  subst hadded
  replace hkept : (i.addAll ss).documents.entries =
    (i.addAll ss).sources.filterMap keptFor? := hkept
  have hbrought : ∀ entry ∈ (i.addAll ss).sources, entry.2.document.isSome →
      ∃ v, keptFor? entry = some (entry.1.address, v) ∧ broughtBy? entry.2 = some v := by
    intro entry hentry hdocument
    obtain ⟨v, hv⟩ := Option.isSome_iff_exists.1 (hread entry hentry hdocument)
    exact ⟨v, by rw [keptFor?, hv]; rfl, hv⟩
  have hvalue : ∀ entry ∈ (i.addAll ss).sources, ∀ d, entry.2.document = some d →
      ∃ v, valueOf? d = some v ∧ (i.addAll ss).documents.get? entry.1.address = some v := by
    intro entry hentry d hd
    obtain ⟨v, hkeptFor, hv⟩ := hbrought entry hentry (by rw [hd]; rfl)
    have hok := (broughtBy?_eq_some_iff hd).1 hv
    refine ⟨v, (readDocument_eq_ok_iff.1 hok).1, OrderedMap.get?_eq_some_iff.2 ?_⟩
    rw [hkept]
    exact List.mem_filterMap.2 ⟨entry, hentry, hkeptFor⟩
  refine ⟨freeAddress_spec, accepted_eq_filter i ss, hentered, ?_, ?_, fun more => ?_⟩
  · refine fun entry hentry => ⟨fun v hd => ?_, fun t hd => hvalue entry hentry _ hd⟩
    obtain ⟨w, hw, hget⟩ := hvalue entry hentry _ hd
    rw [hget, ← hw, valueOf?]
  · have hnodup := (i.addAll ss).documents.nodup
    rw [hkept, List.nodup_iff_pairwise_ne, List.pairwise_map, List.pairwise_filterMap] at hnodup
    refine hnodup.imp_of_mem fun {entry entry'} hentry hentry' hne hdoc hdoc' => ?_
    obtain ⟨v, hv, -⟩ := hbrought entry hentry hdoc
    obtain ⟨v', hv', -⟩ := hbrought entry' hentry' hdoc'
    exact hne _ hv _ hv'
  · obtain ⟨later, -, -, hlater, hlaterKept⟩ := addAll_spec (i.addAll ss) more
    rw [addAll_append, hlater, hlaterKept]
    exact ⟨List.prefix_append _ _, List.prefix_append _ _⟩

theorem document_of_text? {t : String} (h : s.text? = some t) : s.document = some (.text t) := by
  unfold Source.text? at h
  split at h
  · next hd => rw [hd, Option.some.inj h]
  · cases h

/-- A source that is a schema from the start. -/
def plainSource (name : String) (uris : Option (List String)) (document : Option SourceDocument) :
    Source where
  name
  uris
  document
  converted := false

/-- A source that is called what the next one's second address would be, a source without anything,
    one with the same name again, for two URIs, whose schema is a text, and one whose text is none.
-/
def clashing : List Source :=
  [plainSource "s-1" none (some (.value (.bool true))),
    plainSource "s" none (some (.value (.object [("title", .string "S")]))),
    plainSource "t" none none,
    plainSource "s" (some ["s#/a", "#/b"]) (some (.text "\x7b\"type\":\"string\"\x7d")),
    plainSource "s" none (some (.text "[]"))]

/-- Numbers that are taken are left out, whoever took them. -/
theorem inline_documents_kept_clashing :
    (ofDocuments []).sources = [] ∧ (ofDocuments []).documents = ∅ ∧
      ((ofDocuments []).addAll clashing).sources.map (·.1.text) =
        ["s-1", "s", "s-2#/a", "s-3#/b"] ∧
      ((ofDocuments []).addAll clashing).documents.get? (.relative "s") =
        some (.object [("title", .string "S")]) ∧
      ((ofDocuments []).addAll clashing).documents.get? (.relative "s-3") =
        some (.object [("type", .string "string")]) := by
  obtain ⟨-, -, -, hkept, -, -⟩ := inline_documents_kept (i := ofDocuments []) rfl rfl clashing
  -- the value is there when only two sources are, which leaves no text to be read
  obtain ⟨-, -, -, -, -, hgrows⟩ :=
    inline_documents_kept (i := ofDocuments []) rfl rfl (clashing.take 2)
  have hearly : (⟨.relative "s", ""⟩,
      plainSource "s" none (some (.value (.object [("title", .string "S")])))) ∈
      ((ofDocuments []).addAll (clashing.take 2)).sources :=
    List.mem_iff_getElem?.2 ⟨1, rfl⟩
  have hvalue := (hgrows (clashing.drop 2)).1.subset hearly
  rw [List.take_append_drop] at hvalue
  obtain ⟨entry, hentry, haddress, htext⟩ : ∃ entry ∈ ((ofDocuments []).addAll clashing).sources,
      entry.1.address = .relative "s-3" ∧
        entry.2.text? = some "\x7b\"type\":\"string\"\x7d" := by decide +kernel
  obtain ⟨v, hv, hget⟩ := (hkept _ hentry).2 _ (document_of_text? htext)
  have hparse : Json.parse? "\x7b\"type\":\"string\"\x7d" =
      some (.object [("type", .string "string")]) := by cbv
  rw [hparse] at hv
  rw [haddress, ← hv] at hget
  exact ⟨rfl, rfl, by decide +kernel, (hkept _ hvalue).1 _ rfl, hget⟩

/-! ## Refused sources -/

theorem addSource_flag (i : SchemaInput) (flag : Bool) (s : Source) :
    { i with hasOwnSchemas := flag }.addSource s =
      ((i.addSource s).1, { (i.addSource s).2 with hasOwnSchemas := flag || !s.converted }) := by
  cases hd : s.document with
  | none =>
    cases huris : s.uris.isNone <;> simp [addSource, hd, huris, enterSource]
  | some d =>
    cases hv : readDocument s.name d <;> simp [addSource, hd, hv, enterSource]

/-- The flag is a matter of its own: it follows from the sources, and nothing follows from it. -/
theorem addAll_flag (i : SchemaInput) (flag : Bool) (ss : List Source) :
    { i with hasOwnSchemas := flag }.addAll ss =
      { i.addAll ss with hasOwnSchemas := flag || ss.any (!·.converted) } := by
  induction ss generalizing i flag with
  | nil => simp [addAll]
  | cons s ss ih =>
    rw [addAll_cons, addAll_cons, addSource_flag, ih, List.any_cons, Bool.or_assoc]

/-- **Refused sources can be left out**, but for the flag. -/
theorem addAll_accepted (i : SchemaInput) (ss : List Source) :
    i.addAll ss = { i.addAll (i.accepted ss) with
      hasOwnSchemas := i.hasOwnSchemas || ss.any (!·.converted) } := by
  induction ss generalizing i with
  | nil => simp [addAll, accepted]
  | cons s ss ih =>
    have hflag : (i.addSource s).2.hasOwnSchemas = (i.hasOwnSchemas || !s.converted) :=
      congrArg (·.2.hasOwnSchemas) (addSource_flag i i.hasOwnSchemas s)
    rw [addAll_cons, ih, hflag, List.any_cons, Bool.or_assoc]
    cases h : (i.addSource s).1 with
    | error e => rw [accepted_cons_of_error h, addSource_error h, addAll_flag]
    | ok _ => rw [accepted_cons_of_ok h, addAll_cons]

/-- The types do not depend on the flag. -/
theorem addTypes_flag (i : SchemaInput) (flag : Bool) (b : Builder) :
    ({ i with hasOwnSchemas := flag }.addTypes b).1 = (i.addTypes b).1 := by
  unfold addTypes
  by_cases hnone : i.sources.isEmpty
  · simp only [hnone, if_true]
  · simp only [hnone]
    have hgather : { i with hasOwnSchemas := flag }.gatherAll = i.gatherAll := rfl
    rw [hgather]
    obtain ⟨_ | _, g⟩ := i.gatherAll.run
      ⟨Resolver.ofFetcher (.serving i.documents.entries i.fetcher), i.topLevels⟩
    · rfl
    · have hconvert : { i with topLevels := g.topLevels, hasOwnSchemas := flag }.convertAll =
          { i with topLevels := g.topLevels }.convertAll := rfl
      simp only [hconvert]
      generalize { i with topLevels := g.topLevels }.convertAll.run ⟨g.resolver, b, ∅⟩ = outcome
      obtain ⟨_ | _, c⟩ := outcome
      · rfl
      · rfl

/-- **What refused sources leave behind is a flag.**  Documents, sources and top levels are those
    from before, and a run may as well leave the source out: the types are the same.  But a source
    that is a schema from the start sets the flag that there is one, even if it is refused. -/
theorem refused_sources_leave_flag (i : SchemaInput) :
    (∀ s e, (i.addSource s).1 = .error e →
      (i.addSource s).2 = { i with hasOwnSchemas := i.hasOwnSchemas || !s.converted }) ∧
    ∀ ss,
      i.addAll ss = { i.addAll (i.accepted ss) with
        hasOwnSchemas := i.hasOwnSchemas || ss.any (!·.converted) } ∧
      ∀ b, ((i.addAll ss).addTypes b).1 = ((i.addAll (i.accepted ss)).addTypes b).1 := by
  refine ⟨fun s e h => addSource_error h, fun ss => ⟨addAll_accepted i ss, fun b => ?_⟩⟩
  rw [addAll_accepted, addTypes_flag]

/-- A schema that was made from something else. -/
def memo : Source where
  name := "Memo"
  uris := none
  document := some (.text "true")
  converted := true

/-- A schema from the start, which is nowhere. -/
def note : Source := plainSource "Note" none none

/-- The memo alone. -/
def memos : SchemaInput := (ofDocuments []).addAll [memo]

/-- The note is refused and can be left out, but the flag is set. -/
theorem refused_sources_leave_flag_note :
    (memos.addSource note).1 = .error (.noUris "Note") ∧
      (memos.addSource note).2.hasOwnSchemas = true ∧
      ((memos.addAll [note]).addTypes .new).1 = (memos.addTypes .new).1 := by
  obtain ⟨hrefused, hruns⟩ := refused_sources_leave_flag memos
  have hflag := hrefused note _ rfl
  exact ⟨rfl, by rw [hflag]; rfl, (hruns [note]).2 .new⟩

/-- A refused source may change something: the text of the memo is passed through before the note is
    refused, and not any more after that. -/
theorem not_forall_refused :
    (¬∀ (i : SchemaInput) (s : Source) (e : SourceError), (i.addSource s).1 = .error e →
      (i.addSource s).2 = i) ∧
    Inputs.passThrough? [.schema memos] = .ok (some "true") ∧
    Inputs.passThrough? [.schema (memos.addSource note).2] = .ok none := by
  refine ⟨fun h => ?_, eq_ok_of_toOption (by decide +kernel), rfl⟩
  have hsame := congrArg hasOwnSchemas (h memos note _ rfl)
  have hbefore : memos.hasOwnSchemas = false := rfl
  have hafter : (memos.addSource note).2.hasOwnSchemas = true := rfl
  rw [hbefore, hafter] at hsame
  cases hsame

end SchemaTypes.SchemaInput

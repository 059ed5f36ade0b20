/-
  Every document is fetched once and crawled once.

  A resolver takes calls from outside, some of which fail, and its fetcher may answer
  differently each time.  What it was asked is on record (`Store.asked`), and so is what was
  crawled to the end (`Scopes.crawled`): that nothing is fetched or crawled twice says that
  neither record holds an address twice.

  * `Store.answers`: what the fetcher has answered so far; `Store.received`: the documents
    among the answers;
  * `Resolver.Careful`: what each move keeps, that is, the store holds what was received, one
    document for each address, and what was crawled is held and was crawled once;
  * `Resolver.once_only` is the theorem about every sequence of calls.
-/
import SchemaTypes.Proofs.Retrieval

namespace SchemaTypes

/-! ## The record of a store -/

namespace Store

/-- The answers to questions, given the last one first: the question after `n` others is
    number `n`. -/
def answersTo (fetcher : Fetcher) : List Address → List (Address × Except LoadError Json)
  | [] => []
  | a :: earlier => (a, fetcher earlier.length a) :: answersTo fetcher earlier

/-- What the fetcher has answered so far, the last answer first. -/
def answers (s : Store) : List (Address × Except LoadError Json) := answersTo s.fetcher s.asked

/-- The documents that came with the answers, each with the address that was asked for. -/
def received (s : Store) : List (Address × Json) :=
  s.answers.filterMap fun (a, x) => x.toOption.map (a, ·)

variable {s : Store} {a b : Address} {v : Json}

theorem find?_eq_none_iff : s.find? a = none ↔ a ∉ s.documents.map Prod.fst := by
  rw [find?, List.lookup_eq_none_iff, List.mem_map]
  refine ⟨fun h hmem => ?_, fun h e he => ?_⟩
  · obtain ⟨e, he, rfl⟩ := hmem
    simpa using h e he
  · exact bne_iff_ne.2 fun hae => h ⟨e, he, hae.symm⟩

/-- **A document that cannot be fetched leaves nothing behind but the question.** -/
theorem get_of_failed (h : (s.get a).1 = none) :
    (s.get a).2 = { s with asked := a :: s.asked } := by
  cases ha : s.find? a with
  | some w =>
    rw [get_of_find ha] at h
    cases h
  | none =>
    rcases get_of_find_none ha with ⟨e, -, heq⟩ | ⟨w, -, heq⟩ <;> rw [heq] at h ⊢
    cases h

theorem asked_suffix_get (s : Store) (a : Address) : s.asked <:+ (s.get a).2.asked := by
  cases ha : s.find? a with
  | some w => exact (get_of_find ha).symm ▸ List.suffix_rfl
  | none =>
    rcases get_of_find_none ha with ⟨e, -, heq⟩ | ⟨w, -, heq⟩ <;> rw [heq] <;>
      exact List.suffix_cons a s.asked

/-- What a store holds is what it has received, one document for each address. -/
structure Faithful (s : Store) : Prop where
  documents_eq : s.documents = s.received
  nodup : (s.documents.map Prod.fst).Nodup

theorem faithful_ofFetcher (fetcher : Fetcher) : (ofFetcher fetcher).Faithful := ⟨rfl, .nil⟩

/-- Asking for a document keeps it so: only one that is not held is asked for, and only an
    answer with a document is kept. -/
theorem Faithful.get (h : s.Faithful) (a : Address) : (s.get a).2.Faithful := by
  cases ha : s.find? a with
  | some w =>
    rw [get_of_find ha]
    exact h
  | none =>
    have hdocs := h.documents_eq
    rcases get_of_find_none ha with ⟨e, hanswer, heq⟩ | ⟨w, hanswer, heq⟩ <;> rw [heq]
    · refine ⟨hdocs.trans ?_, h.nodup⟩
      simp [received, answers, answersTo, show s.fetcher s.asked.length a = _ from hanswer,
        Except.toOption]
    · refine ⟨?_, List.nodup_cons.2 ⟨find?_eq_none_iff.1 ha, h.nodup⟩⟩
      simp [received, answers, answersTo, show s.fetcher s.asked.length a = _ from hanswer,
        Except.toOption, hdocs]

end Store

/-! ## The record of the crawls -/

namespace Scopes

variable {s : Scopes} {a : Address} {v : Json}

/-- A crawl that comes to the end is recorded. -/
theorem crawled_of_addDocument (h : (s.addDocument v a).1 = .ok true) :
    s.isCrawled a = false ∧ (s.addDocument v a).2.crawled = a :: s.crawled := by
  by_cases ha : s.isCrawled a = true
  · rw [addDocument_of_isCrawled ha] at h
    cases h
  · rcases addDocument_of_not_isCrawled (v := v) ha with ⟨e, -, heq⟩ | ⟨-, heq⟩ <;> rw [heq] at h ⊢
    · cases h
    · exact ⟨by simpa using ha, rfl⟩

/-- Nothing else is. -/
theorem crawled_of_not_addDocument (h : (s.addDocument v a).1 ≠ .ok true) :
    (s.addDocument v a).2.crawled = s.crawled := by
  by_cases ha : s.isCrawled a = true
  · rw [addDocument_of_isCrawled ha]
  · rcases addDocument_of_not_isCrawled (v := v) ha with ⟨e, -, heq⟩ | ⟨-, heq⟩ <;> rw [heq] at h ⊢
    exact absurd rfl h

theorem crawled_suffix_addDocument (s : Scopes) (v : Json) (a : Address) :
    s.crawled <:+ (s.addDocument v a).2.crawled := by
  by_cases h : (s.addDocument v a).1 = .ok true
  · rw [(crawled_of_addDocument h).2]
    exact List.suffix_cons a s.crawled
  · exact (crawled_of_not_addDocument h).symm ▸ List.suffix_rfl

end Scopes

namespace Resolver

/-! ## What moves keep -/

/-- The store holds what it has received, and what was crawled is held and was crawled once. -/
structure Careful (r : Resolver) : Prop where
  faithful : r.store.Faithful
  crawled_nodup : r.scopes.crawled.Nodup
  exists_find : ∀ a ∈ r.scopes.crawled, ∃ v, r.store.find? a = some v

theorem careful_ofFetcher (fetcher : Fetcher) : (ofFetcher fetcher).Careful :=
  ⟨Store.faithful_ofFetcher fetcher, .nil, fun _ h => nomatch h⟩

variable {r r' : Resolver}

theorem Careful.move (h : r.Careful) (hmove : r.Move r') : r'.Careful := by
  cases hmove with
  | fetch a =>
    refine ⟨h.faithful.get a, h.crawled_nodup, fun b hb => ?_⟩
    obtain ⟨v, hv⟩ := h.exists_find b hb
    exact ⟨v, Store.find?_get hv a⟩
  | @crawl a v hfind =>
    by_cases hok : (r.scopes.addDocument v a).1 = .ok true
    · obtain ⟨hnew, hrecord⟩ := Scopes.crawled_of_addDocument hok
      have ha : a ∉ r.scopes.crawled := by simpa [Scopes.isCrawled] using hnew
      refine ⟨h.faithful, ?_, ?_⟩ <;> rw [hrecord]
      · exact List.nodup_cons.2 ⟨ha, h.crawled_nodup⟩
      · exact List.forall_mem_cons.2 ⟨⟨v, hfind⟩, h.exists_find⟩
    · have hrecord := Scopes.crawled_of_not_addDocument hok
      exact ⟨h.faithful, hrecord ▸ h.crawled_nodup, hrecord ▸ h.exists_find⟩

theorem Careful.later (h : r.Careful) (hlater : r.Later r') : r'.Careful := by
  induction hlater with
  | refl => exact h
  | tail _ hmove ih => exact ih.move hmove

/-- Nothing is struck from the records. -/
theorem Later.records_suffix (h : r.Later r') :
    r.store.asked <:+ r'.store.asked ∧ r.scopes.crawled <:+ r'.scopes.crawled := by
  induction h with
  | refl => exact ⟨List.suffix_rfl, List.suffix_rfl⟩
  | tail _ hmove ih =>
    cases hmove with
    | fetch a => exact ⟨ih.1.trans (Store.asked_suffix_get _ a), ih.2⟩
    | crawl => exact ⟨ih.1, ih.2.trans (Scopes.crawled_suffix_addDocument _ _ _)⟩

/-! ## Calls -/

/-- What a resolver can be called for. -/
inductive Call where
  /-- To fetch a document and crawl it. -/
  | addDocument (a : Address)
  /-- To resolve a reference that is written outside of any schema. -/
  | resolveTopLevel (ref : Reference)
  /-- To resolve a reference that is written at a place. -/
  | resolve (base : Location) (ref : Reference)

/-- The resolver after a call, whether the call fails or not. -/
def Call.after (r : Resolver) : Call → Resolver
  | addDocument a => (Resolver.addDocument a r).2
  | resolveTopLevel ref => (Resolver.resolveTopLevel ref r).2
  | resolve base ref => (Resolver.resolve base ref r).2

/-- The resolver after a row of calls. -/
def afterCalls (r : Resolver) (calls : List Call) : Resolver := calls.foldl Call.after r

theorem later_call (r : Resolver) (c : Call) : r.Later (c.after r) := by
  cases c with
  | addDocument a => exact (passes_addDocument (P := fun _ => True) (fun _ _ => trivial) a).reaches
  | resolveTopLevel ref =>
    exact (passes_resolveTopLevel (P := fun _ => True) (fun _ _ => trivial) ref).reaches
  | resolve base ref =>
    exact (passes_resolve (P := fun _ => True) (fun _ _ => trivial) base ref).reaches

theorem later_afterCalls (r : Resolver) (calls : List Call) : r.Later (r.afterCalls calls) := by
  induction calls generalizing r with
  | nil => exact .refl
  | cons c calls ih => exact (later_call r c).trans (ih (c.after r))

/-- **Every document is fetched once and crawled once**, whatever a resolver is called for, and
    however its fetcher changes its answers.  After any calls: no address was answered with a
    document twice; no address was crawled to the end twice; a document stays what it is through
    all calls that follow; what was crawled is held; and the store holds what came with the
    answers and nothing else, a failed fetch in particular leaving it as it was.  The records of
    questions and crawls that say so are never cut, and hold every crawl that came to the end. -/
theorem once_only (fetcher : Fetcher) (before after : List Call) :
    let r := (ofFetcher fetcher).afterCalls before
    let r' := r.afterCalls after
    (r.store.received.map Prod.fst).Nodup ∧ r.scopes.crawled.Nodup ∧
      (∀ a v, r.store.find? a = some v → r'.store.find? a = some v) ∧
      (∀ a, r.scopes.isCrawled a = true → ∃ v, r.store.find? a = some v) ∧
      (r.store.documents = r.store.received ∧
        ∀ (s : Store) a, (s.get a).1 = none → (s.get a).2 = { s with asked := a :: s.asked }) ∧
      (r.store.asked <:+ r'.store.asked ∧ r.scopes.crawled <:+ r'.scopes.crawled) ∧
      ∀ (s : Scopes) v a,
        ((s.addDocument v a).1 = .ok true → (s.addDocument v a).2.crawled = a :: s.crawled) ∧
          ((s.addDocument v a).1 ≠ .ok true → (s.addDocument v a).2.crawled = s.crawled) := by
  intro r r'
  have h : r.Careful := (careful_ofFetcher fetcher).later (later_afterCalls _ before)
  have hlater : r.Later r' := later_afterCalls r after
  refine ⟨h.faithful.documents_eq ▸ h.faithful.nodup, h.crawled_nodup,
    fun a v hv => hlater.find? hv,
    fun a ha => h.exists_find a (by simpa [Scopes.isCrawled] using ha),
    ⟨h.faithful.documents_eq, fun s a hs => Store.get_of_failed hs⟩, hlater.records_suffix,
    fun s v a => ⟨fun hok => (Scopes.crawled_of_addDocument hok).2,
      fun hok => Scopes.crawled_of_not_addDocument hok⟩⟩

/-- The first question is not answered, and every later one by a document of its own. -/
def moody : Fetcher := fun n a =>
  if n = 0 then .error (.notRegistered a.text) else .ok (.object [("$id", .string (toString n))])

/-- Called for a document three times, in two ways, a moody fetcher is not asked again after its
    first document, which is crawled once and stays. -/
theorem once_only_moody :
    let a := Address.parse "shelf.json"
    let r := (ofFetcher moody).afterCalls [.addDocument a, .resolveTopLevel ⟨some a, []⟩]
    let r' := r.afterCalls [.addDocument a]
    r'.store.asked = [a, a] ∧ r'.scopes.crawled = [a] ∧
      ∃ v, r.store.find? a = some v ∧ r'.store.find? a = some v := by
  intro a r r'
  have hcrawled : r.scopes.isCrawled a = true := by decide +kernel
  obtain ⟨-, -, hstays, hheld, -⟩ :=
    once_only moody [.addDocument a, .resolveTopLevel ⟨some a, []⟩] [.addDocument a]
  obtain ⟨v, hv⟩ := hheld a hcrawled
  exact ⟨by decide +kernel, by decide +kernel, v, hv, hstays a v hv⟩

end Resolver

end SchemaTypes

/-
  How often a reference is taken.

  Crawling a document can enter places under any reference, and so change the location that a
  reference denotes.  Yet all these places lie in the document that was crawled: a reference that
  led there leads there again, and the second time there is nothing to crawl.

  * `turn`, `Turns`: one turn of an attempt, and attempts without a bound, by their turns;
  * `address_canonize_addDocument`: a crawl keeps the document that a reference leads to;
  * `exists_turns`: an attempt ends after at most two turns, from any state;
  * `resolution_ends`: no bound is ever met, in an attempt or in what is made of attempts.
-/
import SchemaTypes.Proofs.Pointers

namespace SchemaTypes

/-! ## Crawling and addresses -/

namespace Scopes

variable {s : Scopes} {a : Address} {base : Location} {ref : Reference}

/-- Whatever a crawl enters, even one that fails, lies in the document. -/
theorem address_of_mem_entries {doc : Json} {e : Reference × Location}
    (h : e ∈ (entries (rootLocation a) doc).entries) : e.2.canonical.address = some a := by
  obtain ⟨ks, fields, outer, -, heq, -⟩ := at_of_mem_entries h
  rw [heq]
  rfl

/-- A reference that leads to a document still does after more places were entered, if they lie
    in it. -/
theorem address_canonize_of_append {new : List (Reference × Location)} {crawled : List Address}
    (hnew : ∀ e ∈ new, e.2.canonical.address = some a)
    (h : (s.canonize base ref).canonical.address = some a) :
    ((⟨new ++ s.places, crawled⟩ : Scopes).canonize base ref).canonical.address = some a := by
  unfold canonize at h ⊢
  dsimp only at h ⊢
  rw [List.lookup_append]
  cases hlookup : new.lookup (ref.resolve (some base.reached)) with
  | some l => exact hnew _ (mem_of_lookup hlookup)
  | none => exact h

/-- **A crawl keeps the document that a reference leads to**, whether it fails or not. -/
theorem address_canonize_addDocument (h : (s.canonize base ref).canonical.address = some a)
    (doc : Json) : ((s.addDocument doc a).2.canonize base ref).canonical.address = some a := by
  by_cases ha : s.isCrawled a = true
  · rw [addDocument_of_isCrawled ha]
    exact h
  · have hnew : ∀ e ∈ (entries (rootLocation a) doc).entries.reverse,
        e.2.canonical.address = some a :=
      fun e he => address_of_mem_entries (List.mem_reverse.1 he)
    rcases addDocument_of_not_isCrawled (v := doc) ha with ⟨e, -, heq⟩ | ⟨-, heq⟩ <;> rw [heq] <;>
      exact address_canonize_of_append hnew h

end Scopes

/-- The base that a reference is tried against where the first document cannot be had: it has the
    address of the document that the base lies in. -/
def Location.physical (base : Location) : Location :=
  { base with reached := { base.reached with address := base.canonical.address } }

/-! ## Turns -/

namespace Resolver

/-- What comes of a turn: the reference was taken, or a document was crawled for the first time
    and the reference is to be taken again. -/
inductive Turn
  | taken (x : Option Json × Location)
  | again (a : Address)

/-- One turn of an attempt. -/
def turn (fetchBase lookupBase : Location) (ref : Reference) : ResolverM Turn := do
  let l := (← get).scopes.canonize fetchBase ref
  match l.canonical.address with
  | none => throw (.noAddress l.canonical)
  | some a =>
    match ← document? a with
    | none => return .taken (none, l)
    | some v =>
      if ← crawl v a then return .again a
      else
        let found := (← get).scopes.canonize lookupBase ref
        let target := { found with canonical := { found.canonical with address := some a } }
        let fragment ← target.canonical.lookup v
        return .taken (some fragment, target)

/-- What comes out of a run of steps, and what it leaves. -/
abbrev Outcome (α : Type) := Except ConversionError α × Resolver

/-- An attempt that may take any number of turns, with that number and its outcome: it goes on
    until a turn takes the reference or fails. -/
inductive Turns (fetchBase lookupBase : Location) (ref : Reference) :
    Nat → Resolver → Outcome (Option Json × Location) → Prop
  | taken {r r' : Resolver} {x : Option Json × Location}
      (h : (turn fetchBase lookupBase ref).run r = (.ok (.taken x), r')) :
      Turns fetchBase lookupBase ref 1 r (.ok x, r')
  | failed {r r' : Resolver} {e : ConversionError}
      (h : (turn fetchBase lookupBase ref).run r = (.error e, r')) :
      Turns fetchBase lookupBase ref 1 r (.error e, r')
  | again {r r' : Resolver} {a : Address} {n : Nat} {out : Outcome (Option Json × Location)}
      (h : (turn fetchBase lookupBase ref).run r = (.ok (.again a), r'))
      (hrest : Turns fetchBase lookupBase ref n r' out) :
      Turns fetchBase lookupBase ref (n + 1) r out

variable {r r' : Resolver} {fetchBase lookupBase base : Location} {ref : Reference} {a : Address}
  {n n' : Nat} {out out' : Outcome (Option Json × Location)} {P : ConversionError → Prop}

/-- An attempt is a turn, after which a retry may be left. -/
theorem attempt_eq_turn (retries : Nat) : attempt fetchBase lookupBase ref retries =
    turn fetchBase lookupBase ref >>= fun
      | .taken x => pure x
      | .again a => match retries with
        | 0 => throw (.crawledTwice a.text)
        | n + 1 => attempt fetchBase lookupBase ref n := by
  rw [attempt.eq_def]
  unfold turn
  rw [bind_assoc]
  refine bind_congr fun known => ?_
  dsimp only
  cases (known.scopes.canonize fetchBase ref).canonical.address with
  | none => rfl
  | some a =>
    dsimp only
    rw [bind_assoc]
    refine bind_congr fun doc => ?_
    cases doc with
    | none => rfl
    | some v =>
      dsimp only
      rw [bind_assoc]
      refine bind_congr fun first => ?_
      cases first with
      | true => cases retries <;> rfl
      | false => simp

/-- The turns of an attempt without a bound, and its outcome, are determined. -/
theorem Turns.unique (h : Turns fetchBase lookupBase ref n r out)
    (h' : Turns fetchBase lookupBase ref n' r out') : n = n' ∧ out = out' := by
  induction h generalizing n' out' with
  | taken h | failed h =>
    cases h' with
    | taken h' | failed h' | again h' => cases h.symm.trans h' <;> exact ⟨rfl, rfl⟩
  | again h _ ih =>
    cases h' with
    | taken h' | failed h' => cases h.symm.trans h'
    | again h' hrest' =>
      cases h.symm.trans h'
      obtain ⟨rfl, rfl⟩ := ih hrest'
      exact ⟨rfl, rfl⟩

/-- With as many retries, an attempt has the outcome that it has without a bound. -/
theorem Turns.run_attempt (h : Turns fetchBase lookupBase ref n r out) {retries : Nat}
    (hn : n ≤ retries + 1) : (attempt fetchBase lookupBase ref retries).run r = out := by
  induction h generalizing retries with
  | taken h =>
    rw [attempt_eq_turn, run_bind, h]
    rfl
  | failed h => rw [attempt_eq_turn, run_bind, h]
  | @again r r' a n out h hrest ih =>
    rw [attempt_eq_turn, run_bind, h]
    dsimp only
    cases retries with
    | zero =>
      -- the turns that are left are more than none
      cases hrest <;> omega
    | succ m => exact ih (by omega)

/-! ### What a turn does -/

/-- A turn after which the reference is to be taken again has crawled the document that the
    reference led to, for the first time. -/
theorem ensures_turn : Ensures (turn fetchBase lookupBase ref) r fun t r' => ∀ a, t = .again a →
    (r.scopes.canonize fetchBase ref).canonical.address = some a ∧
      ∃ doc, (r.scopes.addDocument doc a).1 = .ok true ∧
        r'.scopes = (r.scopes.addDocument doc a).2 := by
  unfold turn
  refine (ensures_get (Q := fun known r' => r = known ∧ r = r') ⟨rfl, rfl⟩).seq ?_
  rintro _ _ ⟨rfl, rfl⟩
  dsimp only
  split
  · exact ensures_throw
  · next a ha =>
    have hdocument : Ensures (document? a) r fun _ r₁ => r₁.scopes = r.scopes := by
      rintro _ _ ⟨⟩
      rfl
    refine hdocument.seq fun doc r₁ hr₁ => ?_
    cases doc with
    | none => exact ensures_pure fun _ h => by cases h
    | some v =>
      have hcrawl : Ensures (crawl v a) r₁ fun first r₂ =>
          (r.scopes.addDocument v a).1 = .ok first ∧
            r₂.scopes = (r.scopes.addDocument v a).2 := by
        rw [← hr₁]
        intro first r₂ hrun
        exact ⟨congrArg Prod.fst hrun, by cases congrArg Prod.snd hrun; rfl⟩
      refine hcrawl.seq fun first r₂ ⟨hfirst, hr₂⟩ => ?_
      cases first with
      | true =>
        refine ensures_pure fun b hb => ?_
        cases hb
        exact ⟨ha, v, hfirst, hr₂⟩
      | false =>
        -- what is looked up is no document to be crawled
        refine Ensures.bind fun known r₃ _ => Ensures.bind fun fragment r₄ _ => ?_
        exact ensures_pure fun _ h => by cases h

/-- No turn finds that a document was crawled twice. -/
theorem failsOnly_turn : FailsOnly (turn fetchBase lookupBase ref) r (·.Plain) := by
  have hplain : ∀ e : ConversionError, e.Plain → e.Plain := fun _ => id
  suffices h : Passes Move (·.Plain) (turn fetchBase lookupBase ref) r fun _ _ => True from
    h.failsOnly
  unfold turn
  refine (Passes.get (Q := fun _ _ => True) trivial).bind fun known r₁ _ _ => ?_
  dsimp only
  split
  · exact Passes.throw ⟨fun _ h => (by cases h), fun _ h => (by cases h)⟩
  · refine passes_document?.bind fun doc r₂ _ hdoc => ?_
    cases doc with
    | none => exact Passes.pure trivial
    | some doc =>
      refine (passes_crawl hplain (hdoc doc rfl)).bind fun first r₃ _ _ => ?_
      cases first with
      | true => exact Passes.pure trivial
      | false =>
        refine (Passes.get (Q := fun _ _ => True) trivial).bind fun known r₄ _ _ => ?_
        refine (Passes.lift (Q := fun _ _ => True) (fun _ he => plain_lookup he)
          fun _ _ => trivial).bind fun fragment r₅ _ _ => ?_
        exact Passes.pure trivial

/-- **An attempt ends after at most two turns.**  What the first one crawled, the second one is
    led to, and does not crawl again. -/
theorem exists_turns (r : Resolver) (fetchBase lookupBase : Location) (ref : Reference) :
    ∃ n ≤ 2, ∃ out, Turns fetchBase lookupBase ref n r out ∧ ∀ e, out.1 = .error e → e.Plain := by
  rcases hfirst : (turn fetchBase lookupBase ref).run r with ⟨e | x | a, r₁⟩
  · exact ⟨1, by omega, _, .failed hfirst,
      fun _ he => by cases he; exact failsOnly_turn e r₁ hfirst⟩
  · exact ⟨1, by omega, _, .taken hfirst, fun e he => by cases he⟩
  · obtain ⟨ha, doc, hok, hscopes⟩ := ensures_turn _ _ hfirst a rfl
    have hcrawled := Scopes.isCrawled_of_addDocument hok
    have haddress := Scopes.address_canonize_addDocument ha doc
    rw [← hscopes] at hcrawled haddress
    rcases hsecond : (turn fetchBase lookupBase ref).run r₁ with ⟨e | x | b, r₂⟩
    · exact ⟨2, by omega, _, .again hfirst (.failed hsecond),
        fun _ he => by cases he; exact failsOnly_turn e r₂ hsecond⟩
    · exact ⟨2, by omega, _, .again hfirst (.taken hsecond), fun e he => by cases he⟩
    · obtain ⟨hb, doc', hok', -⟩ := ensures_turn _ _ hsecond b rfl
      cases haddress.symm.trans hb
      rw [Scopes.addDocument_of_isCrawled hcrawled] at hok'
      cases hok'

/-- An attempt has the outcome that it has without a bound, after one turn or two. -/
theorem turns_attempt (r : Resolver) (fetchBase lookupBase : Location) (ref : Reference) :
    ∃ n ≤ 2, Turns fetchBase lookupBase ref n r ((attempt fetchBase lookupBase ref 1).run r) := by
  obtain ⟨n, hn, out, hturns, -⟩ := exists_turns r fetchBase lookupBase ref
  rw [hturns.run_attempt hn]
  exact ⟨n, hn, hturns⟩

theorem failsOnly_attempt : FailsOnly (attempt fetchBase lookupBase ref 1) r (·.Plain) := by
  intro e s he
  obtain ⟨n, hn, out, hturns, hplain⟩ := exists_turns r fetchBase lookupBase ref
  rw [hturns.run_attempt hn] at he
  exact hplain e (congrArg Prod.fst he)

/-! ## Resolving -/

/-- Both attempts of resolving a reference, without bounds, with the number of turns of the two
    together: the second one is made where the first one finds no document. -/
inductive TurnsTwice (base : Location) (ref : Reference) :
    Nat → Resolver → Outcome (Option Json × Location) → Prop
  | once {r : Resolver} {n : Nat} {out : Outcome (Option Json × Location)}
      (h : Turns base base ref n r out) (hout : ∀ l, out.1 ≠ .ok (none, l)) :
      TurnsTwice base ref n r out
  | twice {r r' : Resolver} {l : Location} {n m : Nat} {out : Outcome (Option Json × Location)}
      (h : Turns base base ref n r (.ok (none, l), r'))
      (hrest : Turns base.physical base ref m r' out) : TurnsTwice base ref (n + m) r out

/-- Both attempts together end after at most four turns. -/
theorem turnsTwice_resolveTwice (r : Resolver) (base : Location) (ref : Reference) :
    ∃ n ≤ 4, TurnsTwice base ref n r ((resolveTwice base ref).run r) := by
  obtain ⟨n, hn, hturns⟩ := turns_attempt r base base ref
  unfold resolveTwice
  rw [run_bind]
  rcases hfirst : (attempt base base ref 1).run r with ⟨e | ⟨_ | v, l⟩, r₁⟩ <;>
    rw [hfirst] at hturns
  · exact ⟨n, by omega, .once hturns fun _ h => by cases h⟩
  · obtain ⟨m, hm, hturns'⟩ := turns_attempt r₁ base.physical base ref
    exact ⟨n + m, by omega, .twice hturns hturns'⟩
  · exact ⟨n, by omega, .once hturns fun _ h => by cases h⟩

theorem failsOnly_resolveTwice : FailsOnly (resolveTwice base ref) r (·.Plain) := by
  unfold resolveTwice
  refine failsOnly_attempt.bind fun first r₁ _ => ?_
  rcases first with ⟨_ | v, l⟩
  · exact failsOnly_attempt
  · exact failsOnly_pure

theorem failsOnly_resolve : FailsOnly (resolve base ref) r (·.Plain) := by
  unfold resolve
  refine failsOnly_resolveTwice.bind fun x r₁ _ => ?_
  rcases x with ⟨_ | v, l⟩
  · exact failsOnly_throw ⟨fun _ h => (by cases h), fun _ h => (by cases h)⟩
  · exact failsOnly_pure

theorem failsOnly_resolveTopLevel : FailsOnly (resolveTopLevel ref) r (·.Plain) := by
  unfold resolveTopLevel
  refine failsOnly_resolveTwice.bind fun x r₁ _ => ?_
  rcases x with ⟨_ | v, l⟩
  · exact failsOnly_throw ⟨fun _ h => (by cases h), fun _ h => (by cases h)⟩
  · exact failsOnly_pure

/-- Some steps never find that a document was crawled twice. -/
theorem ne_crawledTwice {α : Type} {m : ResolverM α} (h : FailsOnly m r (·.Plain)) (a : String) :
    (m.run r).1 ≠ .error (.crawledTwice a) :=
  fun he => (h _ _ (Prod.ext he rfl)).2 a rfl

/-- **Resolving a reference ends, and no document is ever found crawled twice.**  From any state,
    by any bases, an attempt takes the reference once or twice, and has the outcome that it has
    if it may take it any number of times.  So a reference in a schema is taken at most four
    times, and one from outside as well. -/
theorem resolution_ends (r : Resolver) (ref : Reference) :
    (∀ fetchBase lookupBase : Location,
      (∃ n ≤ 2, ∀ k out, Turns fetchBase lookupBase ref k r out ↔
        k = n ∧ out = (attempt fetchBase lookupBase ref 1).run r) ∧
      ∀ a, ((attempt fetchBase lookupBase ref 1).run r).1 ≠ .error (.crawledTwice a)) ∧
    (∀ base : Location,
      (∃ n ≤ 4, TurnsTwice base ref n r ((resolveTwice base ref).run r)) ∧
      ∀ a, ((resolve base ref).run r).1 ≠ .error (.crawledTwice a)) ∧
    (∃ n ≤ 4, TurnsTwice (.ofReference ⟨ref.address, []⟩) { ref with address := none } n r
        ((resolveTwice (.ofReference ⟨ref.address, []⟩) { ref with address := none }).run r)) ∧
      ∀ a, ((resolveTopLevel ref).run r).1 ≠ .error (.crawledTwice a) := by
  refine ⟨fun fetchBase lookupBase => ⟨?_, ne_crawledTwice failsOnly_attempt⟩,
    fun base => ⟨turnsTwice_resolveTwice r base ref, ne_crawledTwice failsOnly_resolve⟩,
    turnsTwice_resolveTwice r _ _, ne_crawledTwice failsOnly_resolveTopLevel⟩
  obtain ⟨n, hn, hturns⟩ := turns_attempt r fetchBase lookupBase ref
  refine ⟨n, hn, fun k out => ⟨fun h => h.unique hturns, ?_⟩⟩
  rintro ⟨rfl, rfl⟩
  exact hturns

end Resolver

end SchemaTypes

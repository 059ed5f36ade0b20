/-
  No run is too deep.

  Before the top levels of a run are converted, references are gathered from its sources, which
  only resolves.  So the bound of the run, made for all documents that it may come upon, allows for
  what is converted then.

  * `Gathering.Move`: a step of gathering resolves, and may enter top levels;
  * `passes_gatherAll`: gathering takes such steps;
  * `addTypes_ordinary`: a run never fails for being too deep.
-/
import SchemaTypes.Proofs.Termination
import SchemaTypes.SchemaInput

namespace SchemaTypes

/-- Any error but that of a bound. -/
def SourceError.Ordinary (e : SourceError) : Prop := ∀ e', e = .conversion e' → e'.Ordinary

namespace SchemaInput

variable {g : Gathering} {α : Type}

/-- What a step of gathering may do to what is known. -/
def Gathering.Move (g g' : Gathering) : Prop := g.resolver.Later g'.resolver

theorem Gathering.later_of_moves {g' : Gathering} (h : Relation.ReflTransGen Gathering.Move g g') :
    g.resolver.Later g'.resolver := by
  induction h with
  | refl => exact .refl
  | tail _ hmove ih => exact ih.trans hmove

theorem run_resolving (m : ResolverM α) : (resolving m).run g =
    ((m.run g.resolver).1.mapError .conversion,
      { g with resolver := (m.run g.resolver).2 }) := rfl

theorem passes_resolving {m : ResolverM α} {Q : α → Resolver → Prop}
    (hm : Passes Resolver.Move (·.Ordinary) m g.resolver Q) :
    Passes Gathering.Move (·.Ordinary) (resolving m) g fun x g' => Q x g'.resolver := by
  refine hm.of_part ({ g with resolver := · }) (run_resolving m) (.single hm.reaches)
    (fun e he => ?_) fun _ _ => id
  rintro _ ⟨⟩
  exact he

theorem ordinary_of_ne {e : SourceError} (h : ∀ e', e ≠ .conversion e') : e.Ordinary :=
  fun e' he => absurd he (h e')

theorem passes_crawlAdditional (a : Address) :
    Passes Gathering.Move (·.Ordinary) (crawlAdditional a) g fun _ _ => True := by
  unfold crawlAdditional
  refine (passes_resolving Resolver.passes_document?).bind fun v g₁ _ hv => ?_
  cases v with
  | none => exact Passes.throw (ordinary_of_ne fun _ h => by cases h)
  | some v =>
    have hcrawl := passes_resolving (Resolver.passes_crawl (fun _ he => he.1) (hv v rfl))
    exact hcrawl.discard

theorem ordinary_schemaName {u : SourceUri} {given : String} {v : Json} {e : SourceError}
    (h : schemaName u given v = .error e) : e.Ordinary := by
  unfold schemaName at h
  split at h
  · cases h
  · split at h <;> cases h
    exact ordinary_of_ne fun _ h => by cases h

theorem passes_namedReferences (only : Bool) (u : SourceUri) (s : Source) :
    Passes Gathering.Move (·.Ordinary) (namedReferences only u s) g fun _ _ => True := by
  unfold namedReferences
  obtain ⟨r, ofFields⟩ := referenceOf u
  refine (passes_resolving (Resolver.passes_resolveTopLevel (fun _ => id) r)).bind
    fun x g₁ _ _ => ?_
  obtain ⟨v, l⟩ := x
  dsimp only
  split
  · split
    · exact Passes.pure trivial
    · exact Passes.throw (ordinary_of_ne fun _ h => by cases h)
  · exact (Passes.lift (Q := fun _ _ => True) (fun _ => ordinary_schemaName)
      fun _ _ => trivial).bind fun _ _ _ _ => Passes.pure trivial

/-- The loop that enters references as top levels. -/
theorem passes_enterAll (references : List (String × Reference)) :
    Passes Gathering.Move (·.Ordinary) (forIn references PUnit.unit fun e _ => do
        modify fun g : Gathering => { g with topLevels := g.topLevels.insert e.1 e.2 }
        return ForInStep.yield PUnit.unit : GatheringM PUnit) g fun _ _ => True := by
  induction references generalizing g with
  | nil => exact Passes.pure trivial
  | cons e references ih =>
    rw [List.forIn_cons, bind_assoc]
    refine (Passes.modify (Q := fun _ _ => True) (.single .refl) trivial).bind fun _ g₁ _ _ => ?_
    rw [pure_bind]
    exact ih

/-- **Gathering resolves**, and fails only as that does, or where there is no name or no field. -/
theorem passes_gather (only : Bool) (sources : List (SourceUri × Source)) :
    Passes Gathering.Move (·.Ordinary) (gather only sources) g fun _ _ => True := by
  induction sources generalizing g with
  | nil => exact Passes.pure trivial
  | cons e rest ih =>
    obtain ⟨u, s⟩ := e
    unfold gather
    refine (passes_namedReferences only u s).bind fun references g₁ _ _ => ?_
    exact (passes_enterAll references).bind fun _ _ _ _ => ih

theorem passes_gatherAll (i : SchemaInput) :
    Passes Gathering.Move (·.Ordinary) i.gatherAll g fun _ _ => True := by
  unfold gatherAll
  exact (Passes.forM fun a _ => passes_crawlAdditional a).bind fun _ _ _ _ =>
    passes_gather _ i.sources

/-! ## Runs -/

theorem size_eq_add (i : SchemaInput) : i.size = i.served + valueCount i.documents.entries := by
  have hfoldl : ∀ (documents : List (Address × Json)) (n : Nat),
      (documents.map Prod.snd).foldl (fun n v => n + v.size) n = n + valueCount documents := by
    intro documents
    induction documents with
    | nil => exact fun n => rfl
    | cons d documents ih =>
      intro n
      rw [List.map_cons, List.foldl_cons, ih, valueCount, Nat.add_assoc]
  exact hfoldl i.documents.entries i.served

theorem depthFor_mono {n n' count : Nat} (h : n ≤ n') :
    Conversion.depthFor n count ≤ Conversion.depthFor n' count := by
  have hvalues : n + count + 1 ≤ n' + count + 1 := by omega
  exact Nat.mul_le_mul (Nat.mul_le_mul hvalues hvalues) hvalues

theorem failsOnly_convertAll (i : SchemaInput) {st : Conversion}
    {documents : List (Address × Json)} (hr : st.resolver.Known documents)
    (hsize : valueCount documents ≤ i.size) : FailsOnly i.convertAll st (·.Ordinary) :=
  (Conversion.alike_addTopLevels_of_le _ hr (depthFor_mono hsize) (Nat.le_refl _)).failsOnly

/-- **A run is never too deep**, if what the fetcher serves has no more values than it was given
    the bound for. -/
theorem addTypes_ordinary (i : SchemaInput) (b : Builder) {served : List (Address × Json)}
    (hfetch : ∀ n a v, i.fetcher n a = .ok v → (a, v) ∈ served)
    (hserved : valueCount served ≤ i.served) {e : SourceError} (h : (i.addTypes b).1 = .error e) :
    e.Ordinary := by
  unfold addTypes at h
  split at h
  · cases h
  have hgather := passes_gatherAll i
    (g := ⟨.ofFetcher (.serving i.documents.entries i.fetcher), i.topLevels⟩)
  dsimp only at h
  split at h
  next gathered g hgathered =>
  split at h
  · cases h
    exact hgather.failsOnly _ _ hgathered
  have hknown : g.resolver.Known (i.documents.entries ++ served) := by
    refine Resolver.Known.later ?_ (Gathering.later_of_moves (hgather.reaches_of_run hgathered))
    refine Resolver.known_ofFetcher fun n a v hv => List.mem_append.2 ?_
    exact (Fetcher.mem_of_serving hv).imp_right (hfetch n a v)
  have hsize : valueCount (i.documents.entries ++ served) ≤
      size { i with topLevels := g.topLevels } := by
    rw [valueCount_append, size_eq_add, Nat.add_comm]
    exact Nat.add_le_add_right hserved _
  split at h
  next converted c hconverted =>
  split at h
  · cases h
  · cases h
    rintro _ ⟨⟩
    exact failsOnly_convertAll _ hknown hsize _ _ hconverted

end SchemaInput

end SchemaTypes

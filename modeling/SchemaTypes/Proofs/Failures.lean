/-
  How normalization may fail.

  Two of its stages apply the flattening of unions just once.  Flattening is done at once in
  nearly flat graphs, and that is what comes before: unions are flat, then strings are expanded
  or formats represented.

  * `failsOnly_expandAll`, `failsOnly_representAll`: these stages never ask for more;
  * `normalize_ne_extraIteration`: nor does any other.
-/
import SchemaTypes.Proofs.Normalization

namespace SchemaTypes

/-- The errors of stages but that of one which should have been done at once. -/
def StageError.NotExtra (e : StageError) : Prop := ∀ stage, e ≠ .extraIteration stage

namespace Options

open SchemaTypes.Graph Kind Stage StageError

variable {o : Options} {g₀ g : Graph} {K : Kind → Prop}

theorem failsOnly_fixedPoint {stage : String} {passes : Nat → Pass} :
    FailsOnly (toFixedPoint stage passes) g NotExtra :=
  failsOnly_toFixedPoint (I := fun _ => True) (fun _ _ _ => trivial) (fun _ => StageError.noConfusion)
    (fun _ _ _ _ _ _ => StageError.noConfusion) (fun _ _ _ _ _ _ => StageError.noConfusion) trivial

theorem failsOnly_change {f : Graph → Graph} :
    FailsOnly (discard <| Stage.once (.ofChange f)) g NotExtra :=
  failsOnly_once.discard

theorem failsOnly_optionally {c : Bool} {m : StageM Unit} (h : c = true → FailsOnly m g NotExtra) :
    FailsOnly (optionally c m) g NotExtra := by
  unfold optionally
  cases c with
  | true => exact h rfl
  | false => exact failsOnly_pure

theorem failsOnly_resolveAll : FailsOnly o.resolveAll g NotExtra := by
  unfold resolveAll
  refine failsOnly_change.bind fun _ _ _ => ?_
  refine failsOnly_fixedPoint.bind fun _ _ _ => ?_
  exact failsOnly_change.bind fun _ _ _ => failsOnly_fixedPoint

theorem failsOnly_combineSimilar : FailsOnly o.combineSimilar g NotExtra := by
  unfold combineSimilar
  refine failsOnly_once.bind fun _ _ _ => ?_
  dsimp only
  split
  · exact failsOnly_change.bind fun _ _ _ => failsOnly_fixedPoint
  · exact failsOnly_pure

theorem failsOnly_inferAllMaps : FailsOnly o.inferAllMaps g NotExtra :=
  failsOnly_fixedPoint.bind fun _ _ _ => failsOnly_fixedPoint

/-- What expanding strings leaves: enumerations may have to be merged. -/
theorem nearlyFlat_expanded (h : FlatWithin o g₀ (Resolved o) g) (inference : EnumInference) :
    NearlyFlat .enumeration (expandStrings inference g).collect :=
  (nearlyFlat_expandStrings h.flat inference).collect

/-- **Flattening once is enough after strings were expanded.** -/
theorem failsOnly_expandAll (fromSchemas : Bool) (h : FlatWithin o g₀ (Resolved o) g) :
    FailsOnly (o.expandAll fromSchemas) g NotExtra := by
  refine failsOnly_change.bind (ensures_change (failsOnly_exactlyOnce fun hdone => ?_))
  have hwithin := within_expandStrings h (o.enumInference fromSchemas)
  rw [flattenUnions_done_of_nearlyFlat makes_enumeration hwithin.kept.wellFormed
    (hwithin.every.imp fun _ hk => hk.not_isIntersection) (nearlyFlat_expanded h _)
    fun _ _ => trivial] at hdone
  cases hdone

theorem failsOnly_simplifyAll (fromSchemas : Bool) :
    FailsOnly (o.simplifyAll fromSchemas) g NotExtra := by
  unfold simplifyAll
  refine (failsOnly_optionally fun _ => failsOnly_change).bind fun _ _ _ => ?_
  refine failsOnly_change.bind fun _ _ _ => ?_
  refine (failsOnly_optionally fun _ => failsOnly_change).bind fun _ _ _ => ?_
  exact failsOnly_fixedPoint

/-- **Flattening once is enough after formats were represented.** -/
theorem failsOnly_representAll (h : FlatWithin o g₀ (Required o) g) :
    FailsOnly o.representAll g NotExtra := by
  refine failsOnly_change.bind (ensures_change (failsOnly_exactlyOnce fun hdone => ?_))
  have hrep := represented_representFormats h
  rw [flattenUnions_done_of_nearlyFlat (makes_string_normal o) hrep.kept.wellFormed
    (hrep.every.imp fun _ hk => hk.not_isIntersection) hrep.nearlyFlat hrep.every] at hdone
  cases hdone

/-- **Normalization never asks for another application** of a pass that should be done at once:
    flattening once is enough, whatever the stages before left. -/
theorem normalize_ne_extraIteration (o : Options) (fromSchemas : Bool) (hg : g.WellFormed)
    (stage : String) (g' : Graph) :
    (o.normalize fromSchemas).run g ≠ (.error (.extraIteration stage), g') := by
  have hphases : FailsOnly (o.normalize fromSchemas) g NotExtra := by
    have hK := mergeable_resolved o
    rw [normalize_eq]
    refine failsOnly_resolveAll.seq (ensures_resolveAll hg) fun _ g₁ h => ?_
    refine FailsOnly.seq (R := fun _ => FlatWithin o g (Resolved o))
      (failsOnly_optionally fun _ => failsOnly_combineSimilar)
      (ensures_optionally (fun _ => ensures_combineSimilar hK h) fun _ => h) fun _ g₂ h => ?_
    refine FailsOnly.seq (R := fun _ => FlatWithin o g (Resolved o))
      (failsOnly_optionally fun _ => failsOnly_inferAllMaps)
      (ensures_optionally (fun _ => ensures_inferAllMaps hK h.toWithin) fun _ => h) fun _ g₃ h => ?_
    refine (failsOnly_expandAll fromSchemas h).seq (ensures_expandAll fromSchemas h)
      fun _ g₄ h => ?_
    refine (failsOnly_simplifyAll fromSchemas).seq (ensures_simplifyAll fromSchemas h)
      fun _ g₅ h => ?_
    refine (failsOnly_representAll h).bind fun _ g₆ _ => ?_
    exact failsOnly_modify.bind fun _ _ _ => failsOnly_modify
  exact fun hrun => hphases _ _ hrun stage rfl

/-- Labels, listed in two ways or given by a day: expanding strings makes two enumerations of one
    union, and representing formats two string types of another. -/
def labels : Graph where
  nodes := #[.new (.record (.ofList [("of", ⟨1, false⟩), ("on", ⟨4, false⟩)])),
    .new (.union (.ofList [2, 3])), .new (.enumeration (.ofList ["a"])),
    .new (.string (some (.ofList ["b"]))), .new (.union (.ofList [5, 6])), .new (.formatted .date),
    .new (.string none)]
  topLevels := .ofList [("Label", 0)]

theorem normalize_labels : labels.WellFormed ∧ ∀ stage g',
    ((default : Options).normalize true).run labels ≠ (.error (.extraIteration stage), g') := by
  have hg : labels.WellFormed := ⟨by decide, by decide⟩
  exact ⟨hg, normalize_ne_extraIteration default true hg⟩

end Options

end SchemaTypes

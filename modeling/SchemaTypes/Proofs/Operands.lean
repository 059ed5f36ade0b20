/-
  The types of what a schema combines.

  The types of the targets of references and of the members of `oneOf`, `anyOf` and `allOf`
  promise what the schema that names them accepts (`Fits`), whatever attributes producers add.
-/
import SchemaTypes.Proofs.Described

namespace SchemaTypes.Conversion

open SchemaTypes.Graph

variable {ρ : Reading} {doc : Json} {a : Address} {pending : Pending} {st : Conversion}
  {P : Json → Prop} {convert : Converter} {s : Schema} {l : Location} {attributes : Attributes}

/-! ## Operands -/

theorem itemTypes_spec (hc : Converts ρ doc a P convert) (hl : l.LiesIn a) {all cs : List Json}
    (hall : doc.follow doc l.canonical.path = some (.array all)) {i : Nat} (hcs : cs = all.drop i)
    (hP : ∀ c ∈ cs, P c) (hs : Sound ρ doc a pending st) :
    Leads ρ doc a pending (itemTypes convert l attributes i cs) st fun rs st' =>
      (∀ r ∈ rs, ∃ c ∈ cs, Promises ρ doc pending st' r fun B w => B c w) ∧
        Covers ρ doc pending st' rs fun B w => ∃ c ∈ cs, B c w := by
  induction cs generalizing i st with
  | nil => exact .pure hs ⟨by simp, .nil fun _ _ h => by simp at h⟩
  | cons c cs ih =>
    have hitem : all[i]? = some c := by
      rw [← List.head?_drop, ← hcs]
      rfl
    have hrest : cs = all.drop (i + 1) := by
      rw [← List.tail_drop, ← hcs]
      rfl
    unfold itemTypes
    refine (Leads.lift hs _).bind fun _ s₁ hs₁ _ _ => ?_
    refine (hc _ hs₁ (hl.push _) (Location.follow_push_item hall hitem)
      (hP c List.mem_cons_self)).bind fun r s₂ hs₂ _ hr => ?_
    refine (ih hrest (fun c h => hP c (List.mem_cons_of_mem _ h)) hs₂).bind
      fun rs s₃ hs₃ h₃ ⟨hrs, hcovers⟩ => ?_
    have hr := hr.mono h₃
    refine .pure hs₃ ⟨fun x hx => ?_, ((Covers.singleton hr).append hcovers).imp ?_⟩
    · rcases List.mem_cons.1 hx with rfl | hx
      · exact ⟨c, List.mem_cons_self, hr⟩
      · obtain ⟨c', hc', hx⟩ := hrs x hx
        exact ⟨c', List.mem_cons_of_mem c hc', hx⟩
    · rintro B w ⟨c', hc', hw⟩
      rcases List.mem_cons.1 hc' with rfl | hc'
      · exact .inl hw
      · exact .inr ⟨c', hc', hw⟩

/-- The types of the operands promise what is valid against them. -/
theorem operandTypes_spec (hc : Converts ρ doc a P convert) (hl : Placed doc a P l s)
    {operation : String} (ho : operation ∈ ["allOf", "oneOf", "anyOf"]) {operands : Json}
    (hoperands : s.get? operation = some operands) (hs : Sound ρ doc a pending st) :
    Leads ρ doc a pending (operandTypes convert l attributes operation operands) st
      fun rs st' => ∃ cs, s.get? operation = some (.array cs) ∧
        (∀ r ∈ rs, ∃ c ∈ cs, Promises ρ doc pending st' r fun B w => B c w) ∧
          Covers ρ doc pending st' rs fun B w => ∃ c ∈ cs, B c w := by
  unfold operandTypes
  split
  · next cs =>
    refine (itemTypes_spec hc (hl.liesIn.push _) (Location.follow_push_field hl.follow_eq hoperands)
      List.drop_zero.symm ?_ hs).mono fun rs st' _ _ hrs => ⟨cs, hoperands, hrs⟩
    exact fun c h => hl.uses c (.operand ho hoperands h)
  · exact .throw

/-! ## Attributes of members -/

theorem forM_addAttributes_spec {es : List (NodeId × Attributes)} (hs : Sound ρ doc a pending st) :
    Leads ρ doc a pending (es.forM fun e => change (·.addAttributes e.1 e.2)) st
      fun _ _ => True := by
  induction es generalizing st with
  | nil => exact .pure hs trivial
  | cons e es ih =>
    exact (Leads.addAttributes hs).bind fun _ s₁ hs₁ _ _ => ih hs₁

theorem caseAttributes_spec {r : NodeId} {members : List NodeId} {produced : List Produced}
    (hs : Sound ρ doc a pending st) :
    Leads ρ doc a pending (caseAttributes l r members produced attributes) st
      fun _ _ => True := by
  induction produced generalizing st attributes with
  | nil => exact .pure hs trivial
  | cons p rest ih =>
    unfold caseAttributes
    refine (Leads.addAttributes hs).bind fun _ s₁ hs₁ _ _ => ?_
    dsimp only
    split
    · exact ih hs₁
    · next cases hcases =>
      split
      · exact Ensures.bind ensures_throw
      · exact (forM_addAttributes_spec hs₁).bind fun _ s₂ hs₂ _ _ => ih hs₂

/-! ## References and unions -/

theorem targetType_spec (hdoc : doc.WithoutIds) (hc : Converts ρ doc a P convert)
    (hl : Placed doc a P l s) {ref : Json} (href : s.get? "$ref" = some ref)
    (hs : Sound ρ doc a pending st) :
    Leads ρ doc a pending (targetType convert l attributes ref) st fun r st' =>
      Promises ρ doc pending st' r fun B w => s.Accepts ρ.formats doc B w := by
  unfold targetType
  split
  · next text =>
    have hresolve := Resolver.resolve_spec hdoc hl.liesIn (hl.plain.ref text href) hs.serves
    refine (Leads.resolving hs hresolve).bind fun x s₁ hs₁ _ ht => ?_
    obtain ⟨target, targetLocation⟩ := x
    have hfollow := Reference.follow_of_lookup ht.lookup_eq
    rw [← ht.path_eq] at hfollow
    refine (hc _ hs₁ ht.liesIn hfollow (hl.uses target (.ref href ht.lookup_eq))).mono
      fun r s₂ _ _ hr => hr.imp fun B w hw => ?_
    obtain ⟨c, hlookup, hw⟩ := hw.ref text href
    rw [ht.lookup_eq] at hlookup
    cases hlookup
    exact hw
  · exact .throw

theorem oneOfType_spec (hc : Converts ρ doc a P convert) (hl : Placed doc a P l s)
    {producers : List Producer} {included : List Primitive} {r : NodeId} {operands : Json}
    (hoperands : s.get? "oneOf" = some operands) (hs : Sound ρ doc a pending st) :
    Leads ρ doc a pending (oneOfType convert producers s l included attributes r operands) st
      fun r st' => Promises ρ doc pending st' r fun B w => s.Accepts ρ.formats doc B w := by
  unfold oneOfType
  refine (operandTypes_spec hc hl (by decide) hoperands hs).bind
    fun rs s₁ hs₁ _ ⟨cs, hcs, _, hcovers⟩ => ?_
  refine (caseAttributes_spec hs₁).bind fun unionAttributes s₂ hs₂ h₂ _ => ?_
  exact .union hs₂ ((hcovers.mono h₂).imp fun B w hw => hw.oneOf cs hcs)

theorem anyOfType_spec (hc : Converts ρ doc a P convert) (hl : Placed doc a P l s)
    {operands : Json} (hoperands : s.get? "anyOf" = some operands)
    (hs : Sound ρ doc a pending st) :
    Leads ρ doc a pending (anyOfType convert l attributes operands) st fun r st' =>
      Promises ρ doc pending st' r fun B w => s.Accepts ρ.formats doc B w := by
  unfold anyOfType
  refine (operandTypes_spec hc hl (by decide) hoperands hs).bind
    fun rs s₁ hs₁ _ ⟨cs, hcs, _, hcovers⟩ => ?_
  exact .union hs₁ (hcovers.imp fun B w hw => hw.anyOf cs hcs)

/-- Each of the nodes will admit what the schema accepts. -/
def Fits (ρ : Reading) (doc : Json) (pending : Pending) (s : Schema) (rs : List NodeId)
    (st : Conversion) : Prop :=
  ∀ r ∈ rs, Promises ρ doc pending st r fun B w => s.Accepts ρ.formats doc B w

theorem Fits.mono {st' : Conversion} {rs : List NodeId} (h : Fits ρ doc pending s rs st)
    (hst : Continues st st') : Fits ρ doc pending s rs st' :=
  fun r hr => (h r hr).mono hst

theorem Fits.singleton {r : NodeId}
    (h : Promises ρ doc pending st r fun B w => s.Accepts ρ.formats doc B w) :
    Fits ρ doc pending s [r] st :=
  fun _ hx => List.mem_singleton.1 hx ▸ h

theorem Fits.append {rs rs' : List NodeId} (h : Fits ρ doc pending s rs st)
    (h' : Fits ρ doc pending s rs' st) : Fits ρ doc pending s (rs ++ rs') st :=
  fun r hr => (List.mem_append.1 hr).elim (h r) (h' r)

theorem Leads.fits {m : ConversionM NodeId}
    (hm : Leads ρ doc a pending m st fun r st' =>
      Promises ρ doc pending st' r fun B w => s.Accepts ρ.formats doc B w) :
    Leads ρ doc a pending (do return [← m]) st (Fits ρ doc pending s) :=
  hm.bind fun _ _ hs' _ hr => .pure hs' (.singleton hr)

theorem allOfTypes_spec (hc : Converts ρ doc a P convert) (hl : Placed doc a P l s)
    {operands : Json} (hoperands : s.get? "allOf" = some operands)
    (hs : Sound ρ doc a pending st) :
    Leads ρ doc a pending (operandTypes convert l attributes "allOf" operands) st
      (Fits ρ doc pending s) := by
  refine (operandTypes_spec hc hl (by decide) hoperands hs).mono
    fun rs s₁ _ _ ⟨cs, hcs, hrs, _⟩ r hr => ?_
  obtain ⟨c, hc, hr⟩ := hrs r hr
  exact hr.imp fun B w hw => hw.allOf cs hcs c hc

/-- The types of a keyword promise what the schema accepts, if they do where it is there. -/
theorem ofKeyword_spec {keyword : String} {f : Json → ConversionM (List NodeId)}
    (hs : Sound ρ doc a pending st)
    (hf : ∀ v, s.get? keyword = some v → Leads ρ doc a pending (f v) st (Fits ρ doc pending s)) :
    Leads ρ doc a pending (ofKeyword s keyword f) st (Fits ρ doc pending s) := by
  unfold ofKeyword
  split
  · next v hv => exact hf v hv
  · exact .pure hs fun _ hr => absurd hr List.not_mem_nil

end SchemaTypes.Conversion

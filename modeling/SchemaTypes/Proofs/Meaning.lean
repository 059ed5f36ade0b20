/-
  Passes that keep the meaning of types.

  All three redirect references, so the question is when renaming references changes nothing
  (`admitsAt_renameReferences`): a node must admit what its image does, and an admitted value must
  find its way to the image.

  * `admitsAt_absorbStrings`: strings that a union admits anyway are dropped from it;
  * `admitsAt_mergeDuplicates`: equal types are merged;
  * `admitsAt_removeIndirections`: intersections of a single member give way to it;
  * `redirection_keeps_meaning`: every top level admits after one of these passes just what it
    did before.
-/
import SchemaTypes.Proofs.Chains
import SchemaTypes.Proofs.Flatness

namespace SchemaTypes

namespace Kind

variable {ρ : Reading} {A : NodeId → Json → Prop} {k l : Kind} {v : Json}

/-- What a type of strings admits is a string. -/
theorem exists_string_of_isStringLike (hk : k.isStringLike = true) (h : k.Admits ρ A v) :
    ∃ text, v = .string text := by
  cases k with
  | string cases | formatted f | enumeration cases =>
    obtain ⟨text, rfl, -⟩ := h
    exact ⟨text, rfl⟩
  | _ => cases hk

/-- Kinds that have no identity are compared exactly. -/
theorem eq_of_same (hl : Graph.hasIdentity l = false) (h : k.same l = true) : k = l := by
  cases k <;> cases l <;> simp_all [same, Graph.hasIdentity]

end Kind

namespace Graph

variable {ρ : Reading} {g g' : Graph} {f : NodeId → NodeId} {r s m u t : NodeId} {v : Json}
  {name : String}

/-! ## Renamed references -/

/-- Renamed references lead to nothing new, if no image admits more than its node. -/
theorem admits_of_admits_renameReferences (hf : ∀ c w, g.Admits ρ (f c) w → g.Admits ρ c w)
    (h : (g.renameReferences f).Admits ρ r v) : g.Admits ρ r v := by
  refine Admits.induction (P := fun r v => g.Admits ρ r v) (fun r v hv => ?_) h
  rw [kind_renameReferences, Kind.admits_mapChildren] at hv
  exact admits_iff.2 (hv.mono fun c _ w hw => hf c w hw.2)

/-- **Renaming references changes no meaning**, if no image admits more than its node and every
    value that a node admits is admitted by its image among the renamed ones. -/
theorem admitsAt_renameReferences (hf : ∀ c w, g.Admits ρ (f c) w → g.Admits ρ c w)
    (hkept : ∀ c w, g.Admits ρ c w → (g.renameReferences f).Admits ρ (f c) w) :
    (g.renameReferences f).AdmitsAt ρ name v ↔ g.AdmitsAt ρ name v := by
  have htop : (g.renameReferences f).topLevel? name = (g.topLevel? name).map f :=
    OrderedMap.get?_mapValues ..
  constructor
  · rintro ⟨s, hs, hv⟩
    rw [htop] at hs
    obtain ⟨r, hr, rfl⟩ := Option.map_eq_some_iff.1 hs
    exact ⟨r, hr, hf r v (admits_of_admits_renameReferences hf hv)⟩
  · rintro ⟨r, hr, hv⟩
    exact ⟨f r, by rw [htop, hr]; rfl, hkept r v hv⟩

/-! ## Equal types -/

/-- Merged types are of one kind. -/
theorem kind_eq_of_merged (h : (r, s) ∈ g.merges [] (g.idsWhere fun k => !hasIdentity k)) :
    g.kind s = g.kind r := by
  obtain ⟨hduplicates, hmem⟩ := duplicates_of_mem_merges h
  have hs := (List.mem_filter.1 (hmem.resolve_left List.not_mem_nil)).2
  rw [duplicates, Bool.and_eq_true, Bool.and_eq_true] at hduplicates
  exact (Kind.eq_of_same (by simpa using hs) hduplicates.1.1).symm

/-- **Merging equal types changes no meaning.** -/
theorem admitsAt_mergeDuplicates :
    g.mergeDuplicates.1.AdmitsAt ρ name v ↔ g.AdmitsAt ρ name v := by
  unfold mergeDuplicates forward
  dsimp only
  generalize hmoved : Redirection.follow
    (.ofList (g.merges [] (g.idsWhere fun k => !hasIdentity k))) = f
  have hkind : ∀ c, g.kind (f c) = g.kind c := by
    intro c
    rw [← hmoved]
    refine follow_induction (P := fun s => g.kind s = g.kind c) (fun r s hrs hr => ?_) rfl
    exact (kind_eq_of_merged (SortedMap.mem_of_get?_ofList hrs)).trans hr
  refine admitsAt_renameReferences (fun c w hw => ?_) fun c w hw => ?_
  · rw [admits_iff, hkind] at hw
    exact admits_iff.2 hw
  · exact Admits.transfer (fun r _ _ => .inl (by rw [kind_renameReferences, hkind])) hw

/-! ## Absorbed strings -/

/-- What is left of a kind when strings were dropped from it: of a union, members among which is
    one that admits all strings, if only types of strings were dropped. -/
def Trimmed (g : Graph) (k k' : Kind) : Prop :=
  k' = k ∨ ∃ ms ms', k = .union ms ∧ k' = .union ms' ∧ (∀ m ∈ ms', m ∈ ms) ∧
    (∃ t ∈ ms', g.kind t = .string none) ∧ ∀ m ∈ ms, m ∉ ms' → (g.kind m).isStringLike = true

/-- A union of types of strings, one of which admits all strings. -/
def OfText (g : Graph) (u t : NodeId) : Prop :=
  g.kind t = .string none ∧ ∃ ms, g.kind u = .union ms ∧ t ∈ ms ∧
    ∀ m ∈ ms, (g.kind m).isStringLike = true

namespace Trimmed

variable {k k' k'' : Kind}

theorem refl (k : Kind) : g.Trimmed k k := .inl rfl

theorem trans (h : g.Trimmed k k') (h' : g.Trimmed k' k'') : g.Trimmed k k'' := by
  rcases h with rfl | ⟨ms, ms', rfl, rfl, hsub, ht, hdropped⟩
  · exact h'
  · rcases h' with rfl | ⟨ns, ns', hns, rfl, hsub', ht', hdropped'⟩
    · exact .inr ⟨ms, ms', rfl, rfl, hsub, ht, hdropped⟩
    · cases hns
      refine .inr ⟨ms, ns', rfl, rfl, fun m hm => hsub m (hsub' m hm), ht', fun m hm hnot => ?_⟩
      by_cases hmem : m ∈ ms'
      · exact hdropped' m hmem hnot
      · exact hdropped m hm hmem

/-- Only unions are trimmed. -/
theorem isStringLike_eq (h : g.Trimmed k k') : k'.isStringLike = k.isStringLike := by
  rcases h with rfl | ⟨ms, ms', rfl, rfl, -⟩ <;> rfl

theorem eq_text_iff (h : g.Trimmed k k') : k' = .string none ↔ k = .string none := by
  rcases h with rfl | ⟨ms, ms', rfl, rfl, -⟩ <;> simp

/-- What was a union is one still, and a member that is missing is a type of strings. -/
theorem of_union {ms' : SortedSet NodeId} (h : g.Trimmed k (.union ms')) :
    ∃ ms, k = .union ms ∧ (∀ m ∈ ms', m ∈ ms) ∧
      ∀ m ∈ ms, m ∉ ms' → (g.kind m).isStringLike = true := by
  rcases h with rfl | ⟨ms, ns, rfl, hns, hsub, -, hdropped⟩
  · exact ⟨ms', rfl, fun _ => id, fun m hm hnot => absurd hm hnot⟩
  · cases hns
    exact ⟨ms, rfl, hsub, hdropped⟩

section

variable {ms' : SortedSet NodeId} {kept : List NodeId} {text u : NodeId}

/-- All types of strings but that of all strings may be left out. -/
theorem keep (h : g.Trimmed k (.union ms')) (htext : text ∈ ms') (hkind : g.kind text = .string none)
    (hkept : ∀ m, m ∈ kept ↔ m ∈ ms' ∧ (m = text ∨ (g.kind m).isStringLike = false)) :
    g.Trimmed k (.union (.ofList kept)) := by
  refine h.trans (.inr ⟨ms', _, rfl, rfl, fun m hm => ?_, ⟨text, ?_, hkind⟩, fun m hm hnot => ?_⟩)
  · exact ((hkept m).1 (SortedSet.mem_ofList.1 hm)).1
  · exact SortedSet.mem_ofList.2 ((hkept text).2 ⟨htext, .inl rfl⟩)
  · rw [SortedSet.mem_ofList, hkept, not_and, not_or] at hnot
    simpa using (hnot hm).2

/-- If nothing else is left, then there were only types of strings. -/
theorem ofText_of_keep (h : g.Trimmed (g.kind u) (.union ms')) (htext : text ∈ ms')
    (hkind : g.kind text = .string none)
    (hkept : ∀ m, m ∈ kept ↔ m ∈ ms' ∧ (m = text ∨ (g.kind m).isStringLike = false))
    (hone : kept.length = 1) : g.OfText u text := by
  obtain ⟨ms, hms, hsub, hdropped⟩ := h.of_union
  have honly : ∀ m ∈ kept, m = text := by
    obtain ⟨t, ht⟩ := List.length_eq_one_iff.1 hone
    have htext : text ∈ kept := (hkept text).2 ⟨htext, .inl rfl⟩
    intro m hm
    rw [ht, List.mem_singleton] at hm htext
    exact hm.trans htext.symm
  refine ⟨hkind, ms, hms, hsub text htext, fun m hm => ?_⟩
  by_cases hm' : m ∈ ms'
  · by_contra hlike
    have heq := honly m ((hkept m).2 ⟨hm', .inr (by simpa using hlike)⟩)
    rw [heq, hkind] at hlike
    exact hlike rfl
  · exact hdropped m hm hm'

end

end Trimmed

/-- A graph in which strings are being absorbed, beside the one before: unions are trimmed, and
    those of strings alone are redirected to the text among them. -/
structure Absorbing (g : Graph) (s : Absorption) : Prop where
  trimmed : ∀ r, g.Trimmed (g.kind r) (s.graph.kind r)
  ofText : ∀ u t, s.redirection.get? u = some t → g.OfText u t
  topLevels_eq : s.graph.topLevels = g.topLevels

theorem absorbing_step {s : Absorption} (h : g.Absorbing s) (u : NodeId) :
    g.Absorbing (s.step u) := by
  unfold Absorption.step
  extract_lets g₁ members
  split
  · exact h
  next text hfind =>
  extract_lets kept
  split
  · exact h
  have hmem : text ∈ members := List.mem_of_find?_eq_some hfind
  have hkind : g.kind text = .string none :=
    (h.trimmed text).eq_text_iff.1 (by simpa using List.find?_some hfind)
  obtain ⟨ms', hms'⟩ : ∃ ms', g₁.kind u = .union ms' :=
    ⟨_, Kind.eq_union_of_isUnion (Kind.isUnion_of_mem hmem)⟩
  have hmembers : ∀ m, m ∈ members ↔ m ∈ ms' := by
    intro m
    simp only [members, hms', Kind.unionMembers, SortedSet.mem_toList]
  have hkept : ∀ m, m ∈ kept ↔ m ∈ ms' ∧ (m = text ∨ (g.kind m).isStringLike = false) := by
    intro m
    have hlike : (g₁.kind m).isStringLike = (g.kind m).isStringLike := (h.trimmed m).isStringLike_eq
    simp only [kept, List.mem_filter, hmembers, hlike, Bool.or_eq_true, beq_iff_eq,
      Bool.not_eq_true']
  have htrimmed : g.Trimmed (g.kind u) (.union ms') := hms' ▸ h.trimmed u
  have htext := (hmembers text).1 hmem
  split
  · next hone =>
    refine ⟨fun r => ?_, fun v t hv => ?_, ?_⟩
    · rw [kind_addAttributes]
      exact h.trimmed r
    · rw [SortedMap.get?_insert] at hv
      split at hv
      · next heq =>
        cases hv
        exact heq ▸ htrimmed.ofText_of_keep htext hkind hkept hone
      · exact h.ofText v t hv
    · exact (grows_addAttributes ..).topLevels_eq.trans h.topLevels_eq
  · refine ⟨fun r => ?_, h.ofText, h.topLevels_eq⟩
    rcases kind_modify_cases g₁ u r (f := ({ · with kind := .union (.ofList kept) })) fun _ => rfl
      with hk | ⟨rfl, hk⟩
    · exact hk ▸ h.trimmed r
    · exact hk.symm ▸ htrimmed.keep htext hkind hkept

/-- All that is absorbed from a graph. -/
def absorption (g : Graph) : Absorption := g.ids.foldl Absorption.step ⟨g, ∅⟩

theorem absorbStrings_eq (g : Graph) :
    g.absorbStrings = g.absorption.graph.forward g.absorption.redirection := rfl

theorem absorbing_absorption (g : Graph) : g.Absorbing g.absorption :=
  List.foldlRecOn (motive := g.Absorbing) _ _ ⟨fun r => .refl _, fun _ _ h => (by cases h), rfl⟩
    fun _ hs u _ => absorbing_step hs u

/-- A text is no union, so that the redirection ends there. -/
theorem Absorbing.get?_of_get? {s : Absorption} (h : g.Absorbing s)
    (hu : s.redirection.get? u = some t) : s.redirection.get? t = none := by
  refine Option.eq_none_iff_forall_ne_some.2 fun x hx => ?_
  obtain ⟨-, ms, hms, -⟩ := h.ofText t x hx
  cases (h.ofText u t hu).1.symm.trans hms

/-- Trimmed kinds admit the same values. -/
theorem admits_of_trimmed (h : ∀ r, g.Trimmed (g.kind r) (g'.kind r)) :
    g'.Admits ρ r v ↔ g.Admits ρ r v := by
  constructor
  · refine Admits.induction (P := fun r v => g.Admits ρ r v) fun r v hv => ?_
    rw [admits_iff]
    rcases h r with hk | ⟨ms, ms', hms, hms', hsub, -⟩
    · rw [hk] at hv
      exact hv.mono fun _ _ _ hw => hw.2
    · rw [hms'] at hv
      obtain ⟨m, hm, -, hmv⟩ := hv
      exact hms ▸ ⟨m, hsub m hm, hmv⟩
  · refine Admits.induction (P := fun r v => g'.Admits ρ r v) fun r v hv => ?_
    rcases h r with hk | ⟨ms, ms', hms, hms', -, ⟨t, ht, htext⟩, hdropped⟩
    · rw [admits_iff, hk]
      exact hv.mono fun _ _ _ hw => hw.2
    · rw [hms] at hv
      obtain ⟨m, hm, hmv, hmv'⟩ := hv
      rw [admits_union hms']
      by_cases hm' : m ∈ ms'
      · exact ⟨m, hm', hmv'⟩
      · -- a value of a type that was dropped is a string, as the text admits
        obtain ⟨text, rfl⟩ :=
          Kind.exists_string_of_isStringLike (hdropped m hm hm') (admits_iff.1 hmv)
        refine ⟨t, ht, admits_iff.2 ?_⟩
        rw [(h t).eq_text_iff.2 htext]
        exact ⟨text, rfl, fun _ hc => by cases hc⟩

/-- **Absorbing strings changes no meaning.** -/
theorem admitsAt_absorbStrings : g.absorbStrings.AdmitsAt ρ name v ↔ g.AdmitsAt ρ name v := by
  have H := absorbing_absorption g
  rw [absorbStrings_eq, forward]
  generalize g.absorption = s at H ⊢
  have hsame : ∀ r w, s.graph.Admits ρ r w ↔ g.Admits ρ r w := fun _ _ =>
    admits_of_trimmed H.trimmed
  have htext : ∀ t, g.kind t = .string none → s.graph.kind t = .string none := fun t ht =>
    (H.trimmed t).eq_text_iff.2 ht
  have hcases : ∀ r, s.redirection.follow r = r ∨ g.OfText r (s.redirection.follow r) := by
    intro r
    cases hr : s.redirection.get? r with
    | none => exact .inl (follow_of_none hr)
    | some t =>
      rw [follow_of_some hr (H.get?_of_get? hr)]
      exact .inr (H.ofText r t hr)
  refine (admitsAt_renameReferences (fun c w hw => ?_) fun c w hw => ?_).trans ?_
  · rw [hsame] at hw ⊢
    rcases hcases c with hc | ⟨-, ms, hms, ht, -⟩
    · rwa [hc] at hw
    · exact (admits_union hms).2 ⟨_, ht, hw⟩
  · refine Admits.transfer (fun r w hw => ?_) hw
    rcases hcases r with hr | ⟨ht, ms, hms, -, hlike⟩
    · exact .inl (by rw [hr, kind_renameReferences])
    · obtain ⟨m, hm, hmw⟩ := (admits_union hms).1 ((hsame r w).1 hw)
      obtain ⟨text, rfl⟩ := Kind.exists_string_of_isStringLike (hlike m hm) (admits_iff.1 hmw)
      refine .inr (.inr ⟨.string none, _, rfl, ⟨text, rfl, fun _ hc => by cases hc⟩, ?_, .inl rfl⟩)
      rw [kind_renameReferences, htext _ ht]
  · simp only [AdmitsAt, topLevel?, H.topLevels_eq, hsame]

/-! ## Intersections of a single member -/

theorem Leads.admits_iff (h : g.Leads r m) : g.Admits ρ m v ↔ g.Admits ρ r v := by
  rw [admits_intersection h.1]
  simp

/-- Moving attributes changes neither kinds nor top levels. -/
theorem kind_foldl_moveAttributes (moved : Redirection) (g : Graph) (rs : List NodeId) :
    (∀ s, (rs.foldl (moveAttributes moved) g).kind s = g.kind s) ∧
      (rs.foldl (moveAttributes moved) g).topLevels = g.topLevels := by
  refine List.foldlRecOn (motive := fun g₁ : Graph => (∀ s, g₁.kind s = g.kind s) ∧
    g₁.topLevels = g.topLevels) rs _ ⟨fun _ => rfl, rfl⟩ fun g₁ h r _ => ?_
  unfold moveAttributes
  split
  · exact h
  · exact ⟨fun s => (kind_addAttributes ..).trans (h.1 s),
      (grows_addAttributes ..).topLevels_eq.trans h.2⟩

/-- Whatever a node admits is admitted by every node that its chain comes to, where references are
    renamed along chains.  So it does not matter how far a chain was followed. -/
theorem admits_of_leads (hf : ∀ c, Relation.ReflTransGen g.Leads c (f c)) (h : g.Admits ρ r v) :
    ∀ s, Relation.ReflTransGen g.Leads r s → (g.renameReferences f).Admits ρ s v := by
  refine Admits.induction (P := fun r v => ∀ s, Relation.ReflTransGen g.Leads r s →
    (g.renameReferences f).Admits ρ s v) (fun r v hv s hs => ?_) h
  rcases hs.cases_head with rfl | ⟨m, hm, hms⟩
  · rw [admits_iff, kind_renameReferences, Kind.admits_mapChildren]
    exact hv.mono fun c _ w hw => hw.2 (f c) (hf c)
  · rw [hm.1] at hv
    exact (hv m (SortedSet.mem_singleton.2 rfl)).2 s hms

/-- **Giving way to single members changes no meaning.** -/
theorem admitsAt_removeIndirections :
    g.removeIndirections.AdmitsAt ρ name v ↔ g.AdmitsAt ρ name v := by
  obtain ⟨hkind, htop⟩ := kind_foldl_moveAttributes g.indirections g g.indirections.keys
  unfold removeIndirections forward
  dsimp only
  generalize g.indirections.keys.foldl (moveAttributes g.indirections) g = g₁ at hkind htop ⊢
  have hsame : ∀ r w, g₁.Admits ρ r w ↔ g.Admits ρ r w := fun _ _ =>
    admits_of_trimmed fun r => .inl (hkind r)
  have hleads : ∀ r m, g.indirections.get? r = some m → g₁.Leads r m := fun r m hm => by
    have h := get?_indirections.1 hm
    exact ⟨(hkind r).trans h.1, h.2⟩
  have hchain : ∀ c, Relation.ReflTransGen g₁.Leads c (g.indirections.follow c) := fun c =>
    follow_induction (P := Relation.ReflTransGen g₁.Leads c)
      (fun r m hrm hr => hr.tail (hleads r m hrm)) .refl
  refine (admitsAt_renameReferences (fun c w hw => ?_) fun c w hw => ?_).trans ?_
  · refine (follow_induction (P := fun s => g₁.Admits ρ s w → g₁.Admits ρ c w)
      (fun r m hrm hr hm => ?_) id) hw
    exact hr ((hleads r m hrm).admits_iff.1 hm)
  · exact admits_of_leads hchain hw _ (hchain c)
  · simp only [AdmitsAt, topLevel?, htop, hsame]

/-- **Three passes keep the meaning of types exactly.**  Whatever strings the formats have, every
    top level admits the same values after strings are absorbed, after one merging of equal types,
    and after intersections of a single member give way to it.  Where no chain of such
    intersections runs into a cycle that does not contain its start, the last pass follows every
    chain to its end: its bound cuts nothing off. -/
theorem redirection_keeps_meaning (ρ : Reading) (g : Graph) :
    (∀ name v, g.absorbStrings.AdmitsAt ρ name v ↔ g.AdmitsAt ρ name v) ∧
    (∀ name v, g.mergeDuplicates.1.AdmitsAt ρ name v ↔ g.AdmitsAt ρ name v) ∧
    (g.ChainsReturn →
      (∀ r n, g.indirections.toList.length ≤ n →
        g.indirections.followFrom r n r = g.indirections.follow r) ∧
      ∀ name v, g.removeIndirections.AdmitsAt ρ name v ↔ g.AdmitsAt ρ name v) :=
  ⟨fun _ _ => admitsAt_absorbStrings, fun _ _ => admitsAt_mergeDuplicates,
    fun h => ⟨fun r _ hn => Redirection.followFrom_eq_follow h.returns hn r,
      fun _ _ => admitsAt_removeIndirections⟩⟩

/-- A union of strings and two equal arrays behind a chain of intersections, and a cycle of such
    intersections. -/
def garland : Graph where
  nodes := #[.new (.string none), .new (.string (some (.singleton "a"))), .new (.array 0),
    .new (.intersection (.singleton 4)), .new (.intersection (.singleton 5)),
    .new (.union (.ofList [0, 1, 2, 8])), .new (.intersection (.singleton 7)),
    .new (.intersection (.singleton 6)), .new (.array 0)]
  topLevels := .ofList [("Text", 3), ("Loop", 6)]

theorem leads_garland {r m : Nat} : garland.Leads r m ↔
    r = 3 ∧ m = 4 ∨ r = 4 ∧ m = 5 ∨ r = 6 ∧ m = 7 ∨ r = 7 ∧ m = 6 := by
  have hentries : garland.indirections.toList = [(3, 4), (4, 5), (6, 7), (7, 6)] := by decide
  rw [← get?_indirections, SortedMap.get?, hentries]
  constructor
  · intro h
    simpa using mem_of_lookup h
  · rintro (⟨rfl, rfl⟩ | ⟨rfl, rfl⟩ | ⟨rfl, rfl⟩ | ⟨rfl, rfl⟩) <;> rfl

/-- Only the cycle leads to itself, and only from the cycle does a chain come to it. -/
theorem chainsReturn_garland : garland.ChainsReturn := by
  intro (r : Nat) (s : Nat) hrs hss
  have hup : ∀ t : Nat, Relation.TransGen garland.Leads s t → t ≤ 5 → s < t := by
    intro t ht
    induction ht with
    | single h =>
      have h := leads_garland.1 h
      omega
    | tail _ h ih =>
      have h := leads_garland.1 h
      omega
  have hs : s = 6 ∨ s = 7 := by
    obtain ⟨t, ht, -⟩ := Relation.TransGen.head'_iff.1 hss
    have ht := leads_garland.1 ht
    have hlt := hup s hss
    omega
  have hr : r = 6 ∨ r = 7 := by
    induction hrs using Relation.ReflTransGen.head_induction_on with
    | refl => exact hs
    | head h _ ih =>
      have h := leads_garland.1 h
      omega
  have hstep : garland.Leads 6 7 ∧ garland.Leads 7 6 := by simp [leads_garland]
  rcases hs with rfl | rfl <;> rcases hr with rfl | rfl
  · exact .refl
  · exact .single hstep.1
  · exact .single hstep.2
  · exact .refl

/-- The chain gives way to the union, and the cycle stays a cycle; no top level admits more or
    less. -/
theorem redirection_keeps_garland : garland.ChainsReturn ∧
    ∀ name v, garland.removeIndirections.AdmitsAt (.closed fun _ _ => False) name v ↔
      garland.AdmitsAt (.closed fun _ _ => False) name v :=
  ⟨chainsReturn_garland, ((redirection_keeps_meaning _ garland).2.2 chainsReturn_garland).2⟩

end Graph

end SchemaTypes

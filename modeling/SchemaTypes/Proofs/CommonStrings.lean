/-
  Which strings resolving intersections keeps.

  * `Kind.Admits.string`: what a type says of a string is what it says of any other that has at
    least its formats and is listed wherever it is;
  * `AdmitsText`, `AdmitsFormat`: a node admits a string as such, or all strings of a format,
    whatever strings the formats have; an intersection can admit a string in neither way only if
    formats have strings in common, or listed strings (`admits_string_iff`);
  * `common_strings_kept`: what all members of an intersection admit in one way is admitted after
    resolution, for any formats;
  * `admits_string_meetAll_iff`: no other strings are left where descriptions meet, so that a
    listed string that has a format is lost (`not_forall_string_kept`).
-/
import SchemaTypes.Proofs.FinalNames
import SchemaTypes.Proofs.Intersecting
import SchemaTypes.Proofs.Resolution

namespace SchemaTypes

open SchemaTypes.Graph

variable {ρ ρ' : Reading} {s t : String}

/-! ## One string for another -/

/-- A kind that admits a string admits any other with its formats that it lists, too, if
    members of unions and intersections do. -/
theorem Kind.Admits.string {A B : NodeId → Json → Prop} {k : Kind}
    (h : k.Admits ρ A (.string s)) (hf : ∀ f, ρ.formats f s → ρ'.formats f t)
    (hl : s ∈ k.listed → t ∈ k.listed) (hAB : ∀ c, A c (.string s) → B c (.string t)) :
    k.Admits ρ' B (.string t) := by
  cases k with
  | nothing => exact h.elim
  | any => trivial
  | string cases =>
    obtain ⟨_, ⟨⟩, h⟩ := h
    refine ⟨t, rfl, fun c hc => ?_⟩
    cases hc
    exact hl (h _ rfl)
  | formatted f =>
    obtain ⟨_, ⟨⟩, h⟩ := h
    exact ⟨t, rfl, hf f h⟩
  | enumeration cases =>
    obtain ⟨_, ⟨⟩, h⟩ := h
    exact ⟨t, rfl, hl h⟩
  | union ms =>
    obtain ⟨m, hm, h⟩ := h
    exact ⟨m, hm, hAB m h⟩
  | intersection ms => exact fun m hm => hAB m (h m hm)
  | null | bool | integer | double => simp [Kind.Admits] at h
  | array items | object ps additional | record ps | map values => simp [Kind.Admits] at h

namespace Graph

variable {g : Graph} {r : NodeId}

theorem Admits.string (h : g.Admits ρ r (.string s)) (hf : ∀ f, ρ.formats f s → ρ'.formats f t)
    (hl : ∀ r, s ∈ (g.kind r).listed → t ∈ (g.kind r).listed) : g.Admits ρ' r (.string t) := by
  refine Admits.induction (P := fun r v => v = .string s → g.Admits ρ' r (.string t))
    (fun r v h => ?_) h rfl
  rintro rfl
  exact admits_iff.2 (h.string hf (hl r) fun _ hc => hc.2 rfl)

/-! ## Ways to admit a string -/

/-- A node admits a string whatever strings the formats have. -/
def AdmitsText (g : Graph) (r : NodeId) (s : String) : Prop :=
  ∀ formats, g.Admits (.closed formats) r (.string s)

/-- A node admits the strings of a format, whichever these are. -/
def AdmitsFormat (g : Graph) (r : NodeId) (f : Format) : Prop :=
  ∀ formats s, formats f s → g.Admits (.closed formats) r (.string s)

/-- **All nodes of a set admit a string in one way**: as such, or by the same format. -/
def AdmitAlike (g : Graph) (formats : Format → String → Prop) (ms : SortedSet NodeId)
    (s : String) : Prop :=
  (∀ m ∈ ms, g.AdmitsText m s) ∨ ∃ f, formats f s ∧ ∀ m ∈ ms, g.AdmitsFormat m f

/-- The formats without strings. -/
def noFormats : Format → String → Prop :=
  fun _ _ => False

/-- The formats of which one has a single string and the others none. -/
def oneString (f : Format) (s : String) : Format → String → Prop :=
  fun f' s' => f' = f ∧ s' = s

theorem separate_noFormats : (Reading.closed noFormats).Separate :=
  fun _ _ _ h => h.elim

theorem separate_oneString (f : Format) : (Reading.closed (oneString f s)).Separate := by
  rintro f₁ f₂ _ ⟨rfl, -⟩ ⟨rfl, -⟩
  rfl

/-- Without formats strings are admitted as such alone. -/
theorem admitsText_iff : g.AdmitsText r s ↔ g.Admits (.closed noFormats) r (.string s) :=
  ⟨fun h => h _, fun h _ => h.string (fun _ => False.elim) fun _ => id⟩

/-- Only a format can be the reason why a string is admitted that is its only one, and that
    nothing lists. -/
theorem admitsFormat_of_oneString {f : Format} (ht : ∀ r, t ∉ (g.kind r).listed)
    (h : g.Admits (.closed (oneString f t)) r (.string t)) : g.AdmitsFormat r f := by
  intro formats s hs
  refine h.string (fun f' hf' => ?_) fun r hr => absurd hr (ht r)
  obtain ⟨rfl, -⟩ := hf'
  exact hs

/-- **With formats kept apart, from each other and from listed strings, there are no other
    ways to admit a string.** -/
theorem admits_string_iff {formats : Format → String → Prop}
    (hsep : (Reading.closed formats).Separate)
    (hfree : ∀ r, (Reading.closed formats).Free (g.kind r).listed) :
    g.Admits (.closed formats) r (.string s) ↔
      g.AdmitsText r s ∨ ∃ f, formats f s ∧ g.AdmitsFormat r f := by
  refine ⟨fun h => ?_, ?_⟩
  · by_cases hs : ∃ f, formats f s
    · obtain ⟨f, hf⟩ := hs
      refine .inr ⟨f, hf, fun formats' t ht => h.string (fun f' hf' => ?_) fun r hr => ?_⟩
      · exact hsep f f' s hf hf' ▸ ht
      · exact absurd hf (hfree r s hr f)
    · exact .inl fun formats' => h.string (fun f hf => absurd ⟨f, hf⟩ hs) fun _ => id
  · rintro (h | ⟨f, hf, h⟩)
    · exact h formats
    · exact h formats s hf

/-- An intersection admits a string in the ways in which all its members do. -/
theorem admitAlike_iff {formats : Format → String → Prop} {ms : SortedSet NodeId}
    (hr : g.kind r = .intersection ms) : g.AdmitAlike formats ms s ↔
      g.AdmitsText r s ∨ ∃ f, formats f s ∧ g.AdmitsFormat r f := by
  have htext : g.AdmitsText r s ↔ ∀ m ∈ ms, g.AdmitsText m s := by
    simp only [AdmitsText, admits_intersection hr]
    exact ⟨fun h m hm formats => h formats m hm, fun h formats m hm => h m hm formats⟩
  have hformat : ∀ f, g.AdmitsFormat r f ↔ ∀ m ∈ ms, g.AdmitsFormat m f := fun f => by
    simp only [AdmitsFormat, admits_intersection hr]
    exact ⟨fun h m hm formats s hs => h formats s hs m hm,
      fun h formats s hs m hm => h m hm formats s hs⟩
  simp only [AdmitAlike, htext, hformat]

/-- Graphs list finitely many strings. -/
theorem exists_not_listed (g : Graph) : ∃ t, ∀ r, t ∉ (g.kind r).listed := by
  obtain ⟨t, -, ht⟩ := exists_numbered_not_mem ""
    ((List.range g.size).flatMap fun r => (g.kind r).listed.toList)
  refine ⟨t, fun r hr => ht (List.mem_flatMap.2 ⟨r, ?_, SortedSet.mem_toList.2 hr⟩)⟩
  refine List.mem_range.2 (Nat.not_le.1 fun hle => ?_)
  rw [kind_eq_nothing_of_le hle] at hr
  exact SortedSet.not_mem_empty hr

/-! ## Strings in the resolved graph -/

/-- The graph with its intersections resolved, and with the nodes that this leaves behind. -/
def resolved (g : Graph) : Graph :=
  (Resolution.rounds Resolution.roundLimit (.ofGraph g)).graph

end Graph

namespace Resolution

variable {g₀ o : Graph} {st : Resolution} {r : NodeId}

/-- Strings that the old kinds admit, the new kinds do: no intersection is in the way, since
    strings have no parts. -/
theorem Faithful.admits_string (H : Faithful ρ g₀ st o) (hv : o.Admits ρ r (.string s)) :
    st.graph.Admits ρ r (.string s) := by
  refine Admits.induction (P := fun r v => v = .string s → st.graph.Admits ρ r v)
    (fun r v h => ?_) hv rfl
  rintro rfl
  rcases H.kept r with hk | ⟨-, -, hland⟩
  · rw [admits_iff, hk]
    exact h.string (fun _ => id) id fun _ hc => hc.2 rfl
  · have hor : o.Admits ρ r (.string s) := admits_iff.2 (h.mono fun _ _ _ hc => hc.1)
    obtain ⟨t, ht, hground, -, hadm⟩ := hland _ (Graph.admits_unnested H.wellFormed_old hor)
    have htv : st.graph.Admits ρ t (.string s) :=
      admits_iff.2 (hadm.of_smaller hground fun _ _ w hw => absurd hw (by
        cases w <;> simp [Json.size]))
    rcases ht with rfl | ht
    · exact htv
    · have hu := Kind.eq_union_of_isUnion (Kind.isUnion_of_mem ht)
      exact (admits_union hu).2 ⟨t, SortedSet.mem_ofList.2 ht, htv⟩

end Resolution

namespace Graph

variable {g : Graph} {r : NodeId}

/-- With formats kept apart, every string that a node admits is kept, and formats are kept
    apart from listed strings. -/
theorem resolved_keeps_string {formats : Format → String → Prop}
    (hsep : (Reading.closed formats).Separate) (hg : g.WellFormed)
    (hfree : ∀ r, (Reading.closed formats).Free (g.kind r).listed)
    (hv : g.Admits (.closed formats) r (.string s)) :
    g.resolved.Admits (.closed formats) r (.string s) ∧
      ∀ r, (Reading.closed formats).Free (g.resolved.kind r).listed := by
  obtain ⟨o, H⟩ := Resolution.rounds_spec rfl hsep Resolution.roundLimit
    (Resolution.faithful_start hg hfree)
  have hr : r < g.size := lt_size_of_admits (admits_iff.1 hv)
  exact ⟨H.admits_string ((H.grows.admits_iff hg hr).2 hv), H.free⟩

theorem AdmitsText.resolved (hg : g.WellFormed) (h : g.AdmitsText r s) :
    g.resolved.AdmitsText r s :=
  admitsText_iff.2 (resolved_keeps_string separate_noFormats hg (fun _ _ _ _ => id)
    (admitsText_iff.1 h)).1

theorem AdmitsFormat.resolved (hg : g.WellFormed) {f : Format} (h : g.AdmitsFormat r f) :
    g.resolved.AdmitsFormat r f := by
  -- in the reading where a new string is the only one of the format
  obtain ⟨t, ht⟩ := g.exists_not_listed
  obtain ⟨hv, hfree⟩ := resolved_keeps_string (separate_oneString f) hg
    (fun r s hs _ hf => ht r (by rwa [← hf.2])) (h (oneString f t) t ⟨rfl, rfl⟩)
  exact admitsFormat_of_oneString (fun r hr => hfree r t hr f ⟨rfl, rfl⟩) hv

/-- **Resolving intersections keeps the strings that all members admit in one way**, for any
    formats: at each intersection, and at the node in its place after collection. -/
theorem common_strings_kept {formats : Format → String → Prop} (hg : g.WellFormed)
    {ms : SortedSet NodeId} (hr : g.kind r = .intersection ms) (hv : g.AdmitAlike formats ms s) :
    g.resolved.Admits (.closed formats) r (.string s) ∧
      (r ∈ g.resolved.reachable →
        g.resolveIntersections.1.Admits (.closed formats) (g.resolved.place r) (.string s)) := by
  have hkept : g.resolved.Admits (.closed formats) r (.string s) := by
    rcases (admitAlike_iff hr).1 hv with h | ⟨f, hs, h⟩
    · exact h.resolved hg formats
    · exact h.resolved hg formats s hs
  exact ⟨hkept, fun hreach => (admits_collect (kept_rounds hg).wellFormed hreach).2 hkept⟩

/-- Deadlines: "today" or a date, and "never", "today" or a date. -/
def deadlines : Graph where
  nodes := #[.new (.string (some (.singleton "today"))), .new (.formatted .date),
    .new (.union (.ofList [0, 1])), .new (.enumeration (.ofList ["never", "today"])),
    .new (.union (.ofList [1, 3])), .new (.intersection (.ofList [2, 4]))]
  topLevels := .ofList [("Deadline", 5)]

/-- A reading where every format has the same two strings, of which one is listed. -/
def sameDays (_ : Format) (s : String) : Prop :=
  s = "today" ∨ s = "2020-02-29"

/-- What the alternatives of both members admit, they admit alike: the day that both list, and
    all dates. -/
theorem admitAlike_deadlines {s : String} (hs : sameDays .date s) :
    deadlines.AdmitAlike sameDays (.ofList [2, 4]) s := by
  have hmembers : ∀ m ∈ SortedSet.ofList [2, 4], m = 2 ∨ m = 4 := fun m hm => by
    simpa using SortedSet.mem_ofList.1 hm
  rcases hs with rfl | rfl
  · refine .inl fun m hm formats => ?_
    rcases hmembers m hm with rfl | rfl
    · exact (admits_union rfl).2 ⟨0, by decide, admits_iff.2 ⟨_, rfl, by
        rintro _ ⟨⟩
        exact SortedSet.mem_singleton.2 rfl⟩⟩
    · exact (admits_union rfl).2 ⟨3, by decide, admits_iff.2 ⟨_, rfl, by decide⟩⟩
  · refine .inr ⟨.date, .inr rfl, fun m hm formats s hs => ?_⟩
    rcases hmembers m hm with rfl | rfl <;>
      exact (admits_union rfl).2 ⟨1, by decide, admits_iff.2 ⟨_, rfl, hs⟩⟩

theorem common_strings_kept_deadlines :
    deadlines.resolveIntersections.1.Admits (.closed sameDays) (deadlines.resolved.place 5)
        (.string "today") ∧
      deadlines.resolveIntersections.1.Admits (.closed sameDays) (deadlines.resolved.place 5)
        (.string "2020-02-29") := by
  have hg : deadlines.WellFormed := ⟨by decide, by decide⟩
  have hreach : 5 ∈ deadlines.resolved.reachable := by decide +kernel
  exact ⟨(common_strings_kept hg rfl (admitAlike_deadlines (.inl rfl))).2 hreach,
    (common_strings_kept hg rfl (admitAlike_deadlines (.inr rfl))).2 hreach⟩

end Graph

/-! ## What is lost -/

namespace Admitted

variable {a b d : Admitted} {A : NodeId → Json → Prop} {l : List (Option Admitted)}

/-- A description admits all strings of a format. -/
def AdmitsFormat (a : Admitted) (f : Format) : Prop :=
  a.texts = .all ∨ f ∈ a.formats

theorem texts_admit_meet_iff :
    (a.meet b).texts.Admit s ↔ a.texts.Admit s ∧ b.texts.Admit s := by
  simp only [meet]
  cases a.texts <;> cases b.texts <;> simp [Texts.Admit, Texts.meet]

theorem admitsFormat_meet_iff {f : Format} :
    (a.meet b).AdmitsFormat f ↔ a.AdmitsFormat f ∧ b.AdmitsFormat f := by
  simp only [AdmitsFormat, texts_meet, Texts.meet_eq_all_iff, mem_formats_meet_iff]
  grind

/-- **A meet admits the strings that all sides admit in one way**, and no others. -/
theorem admits_string_meetAll_iff (hd : meetAll l = some d) : d.Admits ρ A (.string s) ↔
    (∀ a, some a ∈ l → a.texts.Admit s) ∨
      ∃ f, ρ.formats f s ∧ ∀ a, some a ∈ l → a.AdmitsFormat f := by
  have hways : d.Admits ρ A (.string s) ↔
      d.texts.Admit s ∨ ∃ f, ρ.formats f s ∧ d.AdmitsFormat f := by
    refine ⟨fun h => h.imp_right fun ⟨f, hf, hs⟩ => ⟨f, hs, .inr hf⟩, ?_⟩
    rintro (h | ⟨f, hs, h | hf⟩)
    · exact .inl h
    · exact .inl (h ▸ trivial)
    · exact .inr ⟨f, hf, hs⟩
  rw [hways, meetAll_iff (P := (·.texts.Admit s)) (fun _ _ => texts_admit_meet_iff) hd]
  simp only [meetAll_iff (P := (·.AdmitsFormat _)) (fun _ _ => admitsFormat_meet_iff) hd]

end Admitted

namespace Graph

/-- A listed string, and dates. -/
def leapDay : Graph where
  nodes := #[.new (.string (some (.singleton "2020-02-29"))), .new (.formatted .date),
    .new (.intersection (.ofList [0, 1]))]
  topLevels := .ofList [("Day", 2)]

/-- **A listed string that is a date is lost.** -/
theorem not_forall_string_kept : ¬∀ (formats : Format → String → Prop) (g : Graph) (r : NodeId)
    (ms : SortedSet NodeId) (s : String), g.WellFormed → r ∈ g.reachable →
      g.kind r = .intersection ms → (∀ m ∈ ms, g.Admits (.closed formats) m (.string s)) →
      r ∈ g.resolved.reachable →
      g.resolveIntersections.1.Admits (.closed formats) (g.resolved.place r) (.string s) := by
  intro h
  have hmembers : ∀ m ∈ SortedSet.ofList [0, 1],
      leapDay.Admits (.closed leapDays) m (.string "2020-02-29") := by
    intro m hm
    have hm : m = 0 ∨ m = 1 := by simpa using SortedSet.mem_ofList.1 hm
    rcases hm with rfl | rfl
    · exact admits_iff.2 ⟨_, rfl, fun c hc => by
        cases hc
        exact SortedSet.mem_singleton.2 rfl⟩
    · exact admits_iff.2 ⟨_, rfl, rfl, rfl⟩
  have hkind : leapDay.resolveIntersections.1.kind (leapDay.resolved.place 2) = .nothing := by
    decide +kernel
  have hafter := h leapDays leapDay 2 _ _ ⟨by decide, by decide⟩ (by decide +kernel) rfl hmembers
    (by decide +kernel)
  rw [admits_iff, hkind] at hafter
  exact hafter

end Graph

end SchemaTypes

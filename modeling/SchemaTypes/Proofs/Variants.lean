/-
  Numbered variants of addresses.

  A variant has a dash and a number behind the path.  The path of a URL is read anew then: breaks
  are left out, dot segments are resolved and characters escaped, so that the text of the variant
  need not be the text of the address and the suffix.  But dashes and digits stand for themselves
  wherever they are read, and no segment with a dash is one of dots or a drive.

  * `suffix`: the dash and the number, which tell numbers apart;
  * `PathReading.exists_text_read_suffix`: what is read ends with the suffix;
  * `Address.withSuffix_injective`: **different numbers give different addresses**;
  * `SchemaInput.freeAddress_spec`: so the search for a free variant ends with the first one.
-/
import Mathlib.Data.List.Nodup
import Mathlib.Data.List.Perm.Subperm
import SchemaTypes.Proofs.Following
import SchemaTypes.SchemaInput

namespace SchemaTypes

open Text

/-! ## Suffixes -/

/-- A dash and a number. -/
def suffix (n : Nat) : List Char := '-' :: (toString n).toList

theorem suffix_injective : Function.Injective suffix := by
  intro m n h
  exact Json.toString_injective (String.toList_injective (List.cons.inj h).2)

theorem toList_append_suffix (s : String) (n : Nat) :
    (s ++ "-" ++ toString n).toList = s.toList ++ suffix n := by
  simp [suffix]

theorem isDigit_of_mem_toString {n : Nat} {c : Char} (h : c ∈ (toString n).toList) :
    c.isDigit = true := by
  rw [Nat.toString_eq_ofList_toDigits, String.toList_ofList] at h
  exact Nat.isDigit_of_mem_toDigits (by decide) (by decide) h

namespace Url

/-- Characters that stand for themselves in paths: dashes and digits. -/
def Plain (c : Char) : Prop := c = '-' ∨ c.isDigit = true

theorem plain_of_mem_suffix {n : Nat} {c : Char} (h : c ∈ suffix n) : Plain c := by
  rcases List.mem_cons.1 h with h | h
  · exact .inl h
  · exact .inr (isDigit_of_mem_toString h)

theorem Plain.toNat {c : Char} (h : Plain c) : c.toNat = 45 ∨ 48 ≤ c.toNat ∧ c.toNat ≤ 57 := by
  rcases h with rfl | h
  · exact .inl rfl
  · exact .inr (Char.isDigit_iff_toNat.1 h)

theorem Plain.ne {c d : Char} (h : Plain c) (hd : d.toNat ≠ 45 ∧ (d.toNat < 48 ∨ 57 < d.toNat)) :
    c ≠ d := by
  rintro rfl
  have := h.toNat
  omega

theorem Plain.not_isControl {c : Char} (h : Plain c) : isControl c = false := by
  have := h.toNat
  simp only [isControl, decide_eq_false_iff_not]
  omega

theorem Plain.not_escapedInPath {c : Char} (h : Plain c) : escapedInPath c = false := by
  simp [escapedInPath, h.not_isControl, h.ne]

theorem Plain.not_isBreak {c : Char} (h : Plain c) : isBreak c = false := by
  simp [isBreak, h.ne]

theorem Plain.not_isSlash {c : Char} (h : Plain c) (special : Bool) :
    isSlash special c = false := by
  simp [isSlash, h.ne]

/-! ## Escapes -/

theorem encode_eq_self {selected : Char → Bool} {cs : List Char}
    (h : ∀ c ∈ cs, selected c = false) : Percent.encode selected cs = cs := by
  induction cs with
  | nil => rfl
  | cons c cs ih =>
    rw [Percent.encode, List.flatMap_cons, h c List.mem_cons_self]
    exact congrArg (c :: ·) (ih fun d hd => h d (List.mem_cons_of_mem c hd))

/-- Escaped or not, suffixes tell texts apart. -/
theorem escape_suffix_injective {selected : Char → Bool} (h : ∀ c, Plain c → selected c = false)
    (cs : List Char) : Function.Injective fun n => escape selected (cs ++ suffix n) := by
  intro m n hmn
  have hencode (k : Nat) :
      Percent.encode selected (cs ++ suffix k) = Percent.encode selected cs ++ suffix k := by
    rw [Percent.encode, List.flatMap_append]
    exact congrArg _ (encode_eq_self fun c hc => h c (plain_of_mem_suffix hc))
  have hchars := String.ofList_injective hmn
  rw [hencode, hencode] at hchars
  exact suffix_injective (List.append_cancel_left hchars)

/-! ## Paths -/

namespace PathReading

variable {special file : Bool}

/-- What a text leads to does not depend on the text behind it. -/
theorem exists_read_append (special file : Bool) (p : PathReading) (cs : List Char) :
    ∃ q : PathReading, ∀ ds, p.read special file (cs ++ ds) = q.read special file ds := by
  induction cs generalizing p with
  | nil => exact ⟨p, fun _ => rfl⟩
  | cons c cs ih =>
    by_cases hbreak : isBreak c
    · obtain ⟨q, hq⟩ := ih { p with fresh := true }
      exact ⟨q, fun ds => by rw [List.cons_append, read, if_pos hbreak, hq]⟩
    by_cases hslash : isSlash special c
    · obtain ⟨q, hq⟩ := ih (p.close file true)
      exact ⟨q, fun ds => by rw [List.cons_append, read, if_neg hbreak, if_pos hslash, hq]⟩
    · obtain ⟨q, hq⟩ := ih (p.push file c)
      exact ⟨q, fun ds => by rw [List.cons_append, read, if_neg hbreak, if_neg hslash, hq]⟩

theorem read_plain {c : Char} (hc : Plain c) (p : PathReading) (cs : List Char) :
    p.read special file (c :: cs) = (p.push file c).read special file cs := by
  simp [read, hc.not_isBreak, hc.not_isSlash]

theorem push_plain {c : Char} (hc : Plain c) (p : PathReading) :
    p.push file c =
      { p.separate file with segment := c :: (p.separate file).segment, fresh := false } := by
  simp [push, Percent.encode, hc.not_escapedInPath]

theorem separate_of_not_fresh {p : PathReading} (h : p.fresh = false) : p.separate file = p := by
  unfold separate
  split
  · simp [h]
  · rfl

/-- Behind a character of a segment, plain characters are just put there. -/
theorem read_plain_all {ds : List Char} (hds : ∀ c ∈ ds, Plain c) {p : PathReading}
    (hp : p.fresh = false) :
    p.read special file ds = { p with segment := ds.reverse ++ p.segment }.close file false := by
  induction ds generalizing p with
  | nil => rfl
  | cons c ds ih =>
    have hc := hds c List.mem_cons_self
    rw [read_plain hc, push_plain hc, separate_of_not_fresh hp,
      ih (fun d hd => hds d (List.mem_cons_of_mem c hd)) rfl]
    simp [hp]

/-- A segment with a dash in it is kept. -/
theorem close_of_dash {p : PathReading} (h : '-' ∈ p.segment) :
    p.close file false = ⟨p.back, [], true, p.drive⟩ := by
  have hne (s : String) (hs : '-' ∉ s.toList) : ¬String.ofList p.segment.reverse = s := by
    rintro rfl
    simp [h] at hs
  have hdouble : isDoubleDotSegment (String.ofList p.segment.reverse) = false := by
    simp [isDoubleDotSegment, hne]
  have hdot : isDotSegment (String.ofList p.segment.reverse) = false := by
    simp [isDotSegment, hne]
  have hdrive : isDrive p.segment.reverse = false := by
    rw [← List.mem_reverse] at h
    unfold isDrive
    split
    · next a b hab =>
      rw [hab] at h
      simp only [List.mem_cons, List.not_mem_nil, or_false] at h
      rcases h with rfl | rfl <;> simp [isLetter]
    · rfl
  simp [close, hdouble, hdot, hdrive]

/-- **What is read ends with the suffix**, whatever precedes it. -/
theorem exists_text_read_suffix (special file : Bool) (p : PathReading) :
    ∃ before, ∀ n, (p.read special file (suffix n)).text file = before ++ suffix n := by
  have hdash : Plain '-' := .inl rfl
  have hread (n : Nat) : ((p.read special file (suffix n)).back).reverse =
      (p.separate file).back.reverse ++ suffix n := by
    have hdigits : ∀ c ∈ (toString n).toList, Plain c := fun c hc =>
      .inr (isDigit_of_mem_toString hc)
    rw [suffix, read_plain hdash, push_plain hdash, read_plain_all hdigits rfl,
      close_of_dash (by simp)]
    simp [back]
  cases file with
  | false => exact ⟨_, hread⟩
  | true =>
    refine ⟨'/' :: (p.separate true).back.reverse.dropWhile (· = '/'), fun n => ?_⟩
    -- The slashes that are dropped end before the dash.
    rw [text, if_pos rfl, hread, List.dropWhile_append]
    split
    · next hnone => rw [List.isEmpty_iff.1 hnone]; simp [suffix]
    · rfl

end PathReading

theorem ofText_injective {c d : Char} {cs ds : List Char}
    (h : UrlPath.ofText (c :: cs) = UrlPath.ofText (d :: ds)) : cs = ds := by
  have hparts : cs.splitOn '/' = ds.splitOn '/' :=
    List.map_injective_iff.2 (fun _ _ => String.ofList_injective) (UrlPath.segments.inj h)
  have hjoined := congrArg ['/'].intercalate hparts
  rwa [List.intercalate_splitOn, List.intercalate_splitOn] at hjoined

theorem ofText_suffix_injective (before : List Char) :
    Function.Injective fun n => UrlPath.ofText (before ++ suffix n) := by
  intro m n h
  cases before with
  | nil => exact suffix_injective (congrArg ('-' :: ·) (ofText_injective h))
  | cons c cs => exact suffix_injective (List.append_cancel_left (ofText_injective h))

/-- Suffixes tell the paths apart that are read behind a text. -/
theorem pathOf_suffix_injective (scheme : String) (before cs : List Char) :
    Function.Injective fun n => pathOf scheme (pathAfter scheme before (cs ++ suffix n)) := by
  intro m n h
  obtain ⟨q, hq⟩ := PathReading.exists_read_append (isSpecial scheme) (scheme == "file")
    (.after before) cs
  obtain ⟨front, hfront⟩ := PathReading.exists_text_read_suffix (isSpecial scheme)
    (scheme == "file") q
  simp only [pathOf, pathAfter, hq, hfront] at h
  exact ofText_suffix_injective front h

/-- Whether a text begins with a slash does not depend on a suffix. -/
theorem startsWith_slash_suffix (s : String) (n : Nat) :
    (s ++ "-" ++ toString n).startsWith "/" = s.startsWith "/" := by
  rw [Bool.eq_iff_iff, String.startsWith_string_iff, String.startsWith_string_iff,
    toList_append_suffix]
  cases s.toList <;> simp [suffix]

theorem withPath_suffix_injective (u : Url) (s : String) :
    Function.Injective fun n : Nat => u.withPath (s ++ "-" ++ toString n) := by
  intro m n h
  simp only [withPath, startsWith_slash_suffix, toList_append_suffix] at h
  split at h
  · -- A path without structure is escaped as a whole.
    have hpath := UrlPath.whole.inj (congrArg Url.path h)
    exact escape_suffix_injective (fun _ => Plain.not_isControl) _ hpath
  · split at h
    · exact pathOf_suffix_injective _ _ _ (congrArg Url.path h)
    · split at h
      · -- The text has become the host.
        have hhost := congrArg Authority.host (Option.some.inj (congrArg Url.authority h))
        exact escape_suffix_injective (fun _ => Plain.not_escapedInPath) _ hhost
      · exact pathOf_suffix_injective _ _ _ (congrArg Url.path h)

end Url

/-! ## Variants -/

namespace Address

/-- **Different numbers give different addresses.** -/
theorem withSuffix_injective (a : Address) : Function.Injective a.withSuffix := by
  intro m n h
  cases a with
  | absolute url => exact Url.withPath_suffix_injective url _ (Address.absolute.inj h)
  | relative path =>
    have hchars := congrArg String.toList (Address.relative.inj h)
    rw [toList_append_suffix, toList_append_suffix] at hchars
    exact suffix_injective (List.append_cancel_left hchars)

end Address

namespace SchemaInput

/-- Of one more number than there are documents, some gives an address that is free. -/
theorem exists_variant_free (documents : OrderedMap Address Json) (a : Address) :
    ∃ n < documents.size + 2, documents.contains (a.variant n) = false := by
  by_contra hall
  have htaken : ∀ n < documents.size + 1, a.withSuffix (n + 1) ∈ documents.keys := by
    intro n hn
    have hcontains : documents.contains (a.variant (n + 1)) = true := by
      by_contra hfree
      exact hall ⟨n + 1, by omega, by simpa using hfree⟩
    exact OrderedMap.mem_keys_iff.2 (Option.isSome_iff_exists.1 hcontains)
  have hsub : (List.range (documents.size + 1)).map (fun n => a.withSuffix (n + 1)) ⊆
      documents.keys := by
    intro b hb
    obtain ⟨n, hn, rfl⟩ := List.mem_map.1 hb
    exact htaken n (List.mem_range.1 hn)
  have hnodup : ((List.range (documents.size + 1)).map fun n => a.withSuffix (n + 1)).Nodup :=
    List.nodup_range.map fun m n hmn => Nat.add_right_cancel (a.withSuffix_injective hmn)
  have hle := (List.subperm_of_subset hnodup hsub).length_le
  simp only [OrderedMap.keys, OrderedMap.size, List.length_map, List.length_range] at hle
  omega

/-- **The search for a free address ends** with the first variant that is free. -/
theorem freeAddress_spec (documents : OrderedMap Address Json) (a : Address) :
    ∃ n, freeAddress documents a = a.variant n ∧ documents.contains (a.variant n) = false ∧
      ∀ m < n, documents.contains (a.variant m) = true := by
  obtain ⟨n, hn, hfree⟩ := exists_variant_free documents a
  cases hfind : (List.range (documents.size + 2)).find? fun n =>
      !documents.contains (a.variant n) with
  | none => exact absurd hfree (by simpa using List.find?_eq_none.1 hfind n (List.mem_range.2 hn))
  | some k =>
    obtain ⟨hk, -, hbefore⟩ := List.find?_range_eq_some.1 hfind
    refine ⟨k, ?_, by simpa using hk, fun m hm => by simpa using hbefore m hm⟩
    simp only [freeAddress, List.find?_map, Function.comp_def, hfind]
    rfl

end SchemaInput

end SchemaTypes

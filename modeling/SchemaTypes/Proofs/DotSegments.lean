/-
  Normal forms of relative addresses.

  Taking an address relative to another removes dot segments with one stack for all paths.  The
  empty segment that a rooted path begins with can be dropped like any other, and an empty segment
  from inside a path can come to stand at its beginning.

  * `Normal`: no segment is `.`, and `..` stands in an unbroken run at the beginning alone;
  * `Stacked`: what is known of the stack, kept by each segment that is pushed (`Stacked.push`);
  * `removeDots_eq_self_iff`: the paths in normal form are those that are left as they are;
  * `resolution_normalizes`: **relative addresses resolve to a normal form**, which is final.
-/
import Mathlib.Tactic.SplitIfs
import SchemaTypes.Address

namespace SchemaTypes.Address

variable {rooted : Bool} {segments stack : List String} {segment path : String}

/-! ## Segments -/

/-- Splitting leaves no separator. -/
theorem not_mem_of_mem_splitOn {α : Type} [DecidableEq α] {x : α} {l part : List α}
    (h : part ∈ l.splitOn x) : x ∉ part := by
  induction l generalizing part with
  | nil => simp_all
  | cons a l ih =>
    rw [List.splitOn, List.splitOnP_cons_eq_if_modifyHead] at h
    split at h
    · rcases List.mem_cons.1 h with rfl | h
      · exact List.not_mem_nil
      · exact ih h
    · next ha =>
      obtain ⟨first, rest, hparts⟩ := List.exists_cons_of_ne_nil (List.splitOnP_ne_nil (· == x) l)
      rw [List.splitOn, hparts] at ih
      rw [hparts, List.modifyHead_cons] at h
      rcases List.mem_cons.1 h with rfl | h
      · rw [List.mem_cons, not_or]
        exact ⟨fun hx => ha (by simp [hx]), ih List.mem_cons_self⟩
      · exact ih (List.mem_cons_of_mem first h)

theorem slash_not_mem_of_mem_splitSegments (h : segment ∈ splitSegments path) :
    '/' ∉ segment.toList := by
  obtain ⟨part, hpart, rfl⟩ := List.mem_map.1 h
  rw [String.toList_ofList]
  exact not_mem_of_mem_splitOn hpart

theorem joinSegments_splitSegments (path : String) : joinSegments (splitSegments path) = path := by
  rw [← String.toList_inj, joinSegments, splitSegments, String.toList_intercalate, List.map_map,
    show String.toList ∘ String.ofList = id from funext fun _ => String.toList_ofList, List.map_id]
  exact List.intercalate_splitOn '/'

theorem splitSegments_joinSegments (hne : segments ≠ [])
    (hslash : ∀ s ∈ segments, '/' ∉ s.toList) :
    splitSegments (joinSegments segments) = segments := by
  have hchars : ((joinSegments segments).toList).splitOn '/' = segments.map String.toList := by
    rw [joinSegments, String.toList_intercalate]
    refine List.splitOn_intercalate '/' (fun part hpart => ?_) (by simpa using hne)
    obtain ⟨s, hs, rfl⟩ := List.mem_map.1 hpart
    exact hslash s hs
  rw [splitSegments, hchars, List.map_map,
    show String.ofList ∘ String.toList = id from funext fun _ => String.ofList_toList, List.map_id]

theorem splitSegments_slash_append (path : String) :
    splitSegments ("/" ++ path) = "" :: splitSegments path := by
  rw [splitSegments, String.toList_append, List.splitOn, show "/".toList = ['/'] from rfl,
    List.singleton_append, List.splitOnP_cons_eq_if_modifyHead]
  rfl

/-- A rooted path is a slash and the rest. -/
theorem exists_eq_slash_append (h : isRooted path = true) : ∃ rest, path = "/" ++ rest := by
  have hhead : path.toList.head? = some '/' := by simpa [isRooted] using h
  obtain ⟨cs, hcs⟩ := List.head?_eq_some_iff.1 hhead
  refine ⟨String.ofList cs, ?_⟩
  rw [← String.toList_inj, hcs, String.toList_append, String.toList_ofList]
  simp

/-! ## Normal forms -/

theorem pushSegment_of_ne (hdot : segment ≠ ".") (hdots : segment ≠ "..") :
    pushSegment rooted stack segment = segment :: stack := by
  simp [pushSegment, hdot, hdots]

/-- What pushing a segment can come to: nothing changes, the last segment is dropped, a `..` is kept
    since only such are below it, or the segment is one that is not of dots. -/
theorem pushSegment_cases (rooted : Bool) (stack : List String) (segment : String) :
    ((segment = "." ∨ rooted = true) ∧ pushSegment rooted stack segment = stack) ∨
    (∃ top, segment = ".." ∧ top ≠ ".." ∧ stack = top :: pushSegment rooted stack segment) ∨
    (segment = ".." ∧ rooted = false ∧ (∀ top ∈ stack.head?, top = "..") ∧
      pushSegment rooted stack segment = segment :: stack) ∨
    (segment ≠ "." ∧ segment ≠ ".." ∧ pushSegment rooted stack segment = segment :: stack) := by
  by_cases hdot : segment = "."
  · exact .inl ⟨.inl hdot, if_pos hdot⟩
  by_cases hdots : segment = ".."
  · subst hdots
    match stack, rooted with
    | [], true => exact .inl ⟨.inr rfl, rfl⟩
    | [], false => exact .inr (.inr (.inl ⟨rfl, rfl, nofun, rfl⟩))
    | top :: below, rooted =>
      by_cases htop : top = ".."
      · cases rooted with
        | true => exact .inl ⟨.inr rfl, by simp [pushSegment, htop]⟩
        | false => exact .inr (.inr (.inl ⟨rfl, rfl, by simpa using htop,
            by simp [pushSegment, htop]⟩))
      · exact .inr (.inl ⟨top, rfl, htop, by simp [pushSegment, htop]⟩)
  · exact .inr (.inr (.inr ⟨hdot, hdots, pushSegment_of_ne hdot hdots⟩))

/-- No segment is `.`, and `..` occurs only in an unbroken run at the beginning. -/
structure Normal (path : String) : Prop where
  no_dot : "." ∉ splitSegments path
  leading : ∃ n rest, splitSegments path = List.replicate n ".." ++ rest ∧ ".." ∉ rest

/-- What a stack of segments, last one first, is like: below a `..` there is nothing else, and in a
    rooted path there is none. -/
structure Stacked (rooted : Bool) (stack : List String) : Prop where
  no_dot : "." ∉ stack
  below : stack.Pairwise fun later earlier => later = ".." → earlier = ".."
  no_parent : rooted = true → ".." ∉ stack

theorem stacked_nil (rooted : Bool) : Stacked rooted [] :=
  ⟨List.not_mem_nil, .nil, fun _ => List.not_mem_nil⟩

theorem Stacked.tail (h : Stacked rooted (segment :: stack)) : Stacked rooted stack where
  no_dot hmem := h.no_dot (List.mem_cons_of_mem segment hmem)
  below := (List.pairwise_cons.1 h.below).2
  no_parent hr hmem := h.no_parent hr (List.mem_cons_of_mem segment hmem)

/-- A segment that is not of dots can stand anywhere. -/
theorem Stacked.cons (h : Stacked rooted stack) (hdot : segment ≠ ".") (hdots : segment ≠ "..") :
    Stacked rooted (segment :: stack) where
  no_dot hmem := (List.mem_cons.1 hmem).elim (fun heq => hdot heq.symm) h.no_dot
  below := List.pairwise_cons.2 ⟨fun _ _ heq => absurd heq hdots, h.below⟩
  no_parent hr hmem := (List.mem_cons.1 hmem).elim (fun heq => hdots heq.symm) (h.no_parent hr)

/-- A further `..` can stand on a run of them. -/
theorem Stacked.cons_parent (h : Stacked false stack) (hall : ∀ s ∈ stack, s = "..") :
    Stacked false (".." :: stack) where
  no_dot hmem := (List.mem_cons.1 hmem).elim (by decide) h.no_dot
  below := List.pairwise_cons.2 ⟨fun s hs _ => hall s hs, h.below⟩
  no_parent := nofun

/-- **Pushing a segment keeps the stack in shape.** -/
theorem Stacked.push (h : Stacked rooted stack) (segment : String) :
    Stacked rooted (pushSegment rooted stack segment) := by
  rcases pushSegment_cases rooted stack segment with ⟨-, heq⟩ | ⟨top, -, -, hstack⟩ |
    ⟨rfl, rfl, hrun, heq⟩ | ⟨hdot, hdots, heq⟩
  · rwa [heq]
  · exact (hstack ▸ h).tail
  · rw [heq]
    refine h.cons_parent ?_
    cases stack with
    | nil => nofun
    | cons top below =>
      have htop : top = ".." := hrun top rfl
      exact List.forall_mem_cons.2
        ⟨htop, fun s hs => (List.pairwise_cons.1 h.below).1 s hs htop⟩
  · exact heq ▸ h.cons hdot hdots

theorem stacked_foldl (rooted : Bool) (segments : List String) :
    Stacked rooted (segments.foldl (pushSegment rooted) []) :=
  List.foldlRecOn segments _ (stacked_nil rooted) fun _ h segment _ => h.push segment

/-- A segment that the stack can hold is pushed as it is. -/
theorem Stacked.push_eq (h : Stacked rooted (segment :: stack)) :
    pushSegment rooted stack segment = segment :: stack := by
  have hdot : segment ≠ "." := fun heq => h.no_dot (heq ▸ List.mem_cons_self)
  rcases pushSegment_cases rooted stack segment with ⟨hkept, -⟩ | ⟨top, hdots, htop, hstack⟩ |
    ⟨-, -, -, heq⟩ | ⟨-, -, heq⟩
  · have hrooted : rooted = true := hkept.resolve_left hdot
    have hdots : segment ≠ ".." := fun heq => h.no_parent hrooted (heq ▸ List.mem_cons_self)
    exact pushSegment_of_ne hdot hdots
  · rw [hstack] at h
    exact absurd ((List.pairwise_cons.1 h.below).1 top List.mem_cons_self hdots) htop
  · exact heq
  · exact heq

theorem Stacked.of_append {later : List String} (h : Stacked rooted (later ++ stack)) :
    Stacked rooted stack := by
  induction later with
  | nil => exact h
  | cons _ _ ih => exact ih h.tail

/-- Nothing is dropped of segments that the stack can hold. -/
theorem foldl_pushSegment_of_stacked (h : Stacked rooted (segments.reverse ++ stack)) :
    segments.foldl (pushSegment rooted) stack = segments.reverse ++ stack := by
  induction segments generalizing stack with
  | nil => rfl
  | cons segment segments ih =>
    rw [List.reverse_cons, List.append_assoc, List.singleton_append] at h ⊢
    rw [List.foldl_cons, h.of_append.push_eq]
    exact ih h

theorem mem_of_mem_pushSegment {s : String} (h : s ∈ pushSegment rooted stack segment) :
    s ∈ stack ∨ s = segment := by
  rcases pushSegment_cases rooted stack segment with ⟨-, heq⟩ | ⟨top, -, -, hstack⟩ |
    ⟨-, -, -, heq⟩ | ⟨-, -, heq⟩
  · exact .inl (heq ▸ h)
  · exact .inl (hstack ▸ List.mem_cons_of_mem top h)
  · exact (List.mem_cons.1 (heq ▸ h)).symm
  · exact (List.mem_cons.1 (heq ▸ h)).symm

/-- Only segments of the path are on the stack. -/
theorem mem_of_mem_foldl_pushSegment {s : String}
    (h : s ∈ segments.foldl (pushSegment rooted) []) : s ∈ segments := by
  revert s
  refine List.foldlRecOn segments _ (motive := fun stack => ∀ {s}, s ∈ stack → s ∈ segments)
    (fun h => absurd h List.not_mem_nil) fun stack ih segment hsegment s hs => ?_
  rcases mem_of_mem_pushSegment hs with hs | rfl
  · exact ih hs
  · exact hsegment

/-! ## The run at the beginning -/

theorem Stacked.exists_run (h : Stacked rooted stack) :
    ∃ n rest, stack.reverse = List.replicate n ".." ++ rest ∧ ".." ∉ rest := by
  induction stack with
  | nil => exact ⟨0, [], rfl, List.not_mem_nil⟩
  | cons segment stack ih =>
    obtain ⟨n, rest, hrun, hrest⟩ := ih h.tail
    by_cases hdots : segment = ".."
    · have hall : ∀ s ∈ stack, s = ".." := fun s hs =>
        (List.pairwise_cons.1 h.below).1 s hs hdots
      refine ⟨stack.length + 1, [], ?_, List.not_mem_nil⟩
      rw [List.reverse_cons, List.eq_replicate_of_mem hall, hdots]
      simp [List.replicate_succ']
    · refine ⟨n, rest ++ [segment], ?_, ?_⟩
      · rw [List.reverse_cons, hrun, List.append_assoc]
      · simp [hrest, Ne.symm hdots]

/-- A path is in normal form if the stack can hold its segments. -/
theorem Stacked.normal (h : Stacked rooted (splitSegments path).reverse) : Normal path where
  no_dot hmem := h.no_dot (List.mem_reverse.2 hmem)
  leading := by simpa using h.exists_run

/-- A rooted path begins with an empty segment, so that no run of `..` can. -/
theorem Normal.no_parent (h : Normal path) (hrooted : isRooted path = true) :
    ".." ∉ splitSegments path := by
  obtain ⟨p, rfl⟩ := exists_eq_slash_append hrooted
  obtain ⟨n, rest, hrun, hrest⟩ := h.leading
  rw [hrun]
  cases n with
  | zero => exact hrest
  | succ n =>
    rw [splitSegments_slash_append, List.replicate_succ, List.cons_append] at hrun
    exact absurd (List.cons.inj hrun).1 (by decide)

/-- The stack can hold the segments of a path in normal form. -/
theorem Normal.stacked (h : Normal path) :
    Stacked (isRooted path) (splitSegments path).reverse where
  no_dot hmem := h.no_dot (List.mem_reverse.1 hmem)
  below := by
    obtain ⟨n, rest, hrun, hrest⟩ := h.leading
    rw [List.pairwise_reverse, hrun, List.pairwise_append]
    refine ⟨List.pairwise_replicate.2 (.inr fun _ => rfl), ?_, ?_⟩
    · exact List.pairwise_of_forall_mem_list fun _ _ s hs heq => absurd (heq ▸ hs) hrest
    · exact fun s hs _ _ _ => List.eq_of_mem_replicate hs
  no_parent hr hmem := h.no_parent hr (List.mem_reverse.1 hmem)

/-! ## Paths without dot segments -/

/-- What is joined from the stack has its segments; nothing is joined to one that is empty. -/
theorem Stacked.join (h : Stacked rooted stack) (hslash : ∀ s ∈ stack, '/' ∉ s.toList) :
    Stacked rooted (splitSegments (joinSegments stack.reverse)).reverse := by
  by_cases hnil : stack = []
  · subst hnil
    have hempty : Stacked rooted [""] := (stacked_nil rooted).cons (by decide) (by decide)
    exact hempty
  · rw [splitSegments_joinSegments (by simpa using hnil) (by simpa using hslash),
      List.reverse_reverse]
    exact h

/-- A slash at the beginning of a rooted path does no harm. -/
theorem Stacked.slash (h : Stacked true (splitSegments path).reverse) :
    Stacked true (splitSegments ("/" ++ path)).reverse := by
  have hnone : ∀ s ∈ (splitSegments path).reverse, s ≠ ".." := fun s hs heq =>
    h.no_parent rfl (heq ▸ hs)
  rw [splitSegments_slash_append, List.reverse_cons]
  refine ⟨?_, List.pairwise_append.2 ⟨h.below, List.pairwise_singleton _ _, ?_⟩, fun _ => ?_⟩
  · simpa using h.no_dot
  · exact fun s hs _ _ heq => absurd heq (hnone s hs)
  · simpa using h.no_parent rfl

/-- The stack can hold the segments that are left. -/
theorem stacked_removeDots (path : String) :
    Stacked (isRooted path) (splitSegments (removeDots path)).reverse := by
  have hjoined := (stacked_foldl (isRooted path) (splitSegments path)).join fun s hs =>
    slash_not_mem_of_mem_splitSegments (mem_of_mem_foldl_pushSegment hs)
  simp only [removeDots]
  split_ifs with hslash
  · rw [(Bool.and_eq_true_iff.1 hslash).1] at hjoined ⊢
    exact hjoined.slash
  · exact hjoined

theorem normal_removeDots (path : String) : Normal (removeDots path) :=
  (stacked_removeDots path).normal

/-- **A path in normal form is left as it is**, and no other. -/
theorem removeDots_eq_self_iff : removeDots path = path ↔ Normal path := by
  refine ⟨fun h => h ▸ normal_removeDots path, fun h => ?_⟩
  have hstacked : Stacked (isRooted path) ((splitSegments path).reverse ++ []) := by
    rw [List.append_nil]
    exact h.stacked
  simp [removeDots, foldl_pushSegment_of_stacked hstacked, joinSegments_splitSegments]

/-! ## Resolution -/

/-- **Relative addresses resolve to a normal form.**  Taken relative to any relative address, one
    that is not empty becomes one without `.`, and with `..` only in an unbroken run at the
    beginning, or nowhere if it begins with a slash.  Of all paths, those in that form are left as
    they are, and no others; so removing dot segments again changes nothing. -/
theorem resolution_normalizes :
    (∀ r b : String, r ≠ "" → ∃ p, (relative r).resolve (relative b) = relative p ∧ Normal p ∧
      (isRooted r = true → ".." ∉ splitSegments p)) ∧
    (∀ path, removeDots path = path ↔ Normal path) ∧
    ∀ path, removeDots (removeDots path) = removeDots path := by
  refine ⟨fun r b hr => ?_, fun path => removeDots_eq_self_iff,
    fun path => removeDots_eq_self_iff.2 (normal_removeDots path)⟩
  have hempty : r.isEmpty = false := by simpa using hr
  simp only [resolve, hempty, Bool.false_eq_true, if_false]
  split_ifs with hrooted
  · exact ⟨_, rfl, normal_removeDots r, fun hr hmem =>
      (stacked_removeDots r).no_parent hr (List.mem_reverse.2 hmem)⟩
  · exact ⟨_, rfl, normal_removeDots _, fun hr => absurd hr hrooted⟩

/-- One path keeps the segments that lead above its base, a rooted one does not; and an empty
    segment comes to stand first where the one before it is dropped. -/
theorem resolution_normalizes_shelves :
    ("../..//./../../shelf/" ≠ "" ∧ "/..//./../shelf/" ≠ "") ∧
    ((relative "../..//./../../shelf/").resolve (relative "lists/main.json") =
        relative "../../shelf/" ∧
      Normal "../../shelf/") ∧
    ((relative "/..//./../shelf/").resolve (relative "lists/main.json") = relative "/shelf/" ∧
      ".." ∉ splitSegments "/shelf/") ∧
    removeDots "a/..//b" = "/b" ∧ removeDots "/b" = "/b" := by
  obtain ⟨hresolve, -, hagain⟩ := resolution_normalizes
  have hup : (relative "../..//./../../shelf/").resolve (relative "lists/main.json") =
      relative "../../shelf/" := by decide
  have hrooted : (relative "/..//./../shelf/").resolve (relative "lists/main.json") =
      relative "/shelf/" := by decide
  have hremove : removeDots "a/..//b" = "/b" := by decide
  refine ⟨⟨by decide, by decide⟩, ⟨hup, ?_⟩, ⟨hrooted, ?_⟩, hremove, hremove ▸ hagain "a/..//b"⟩
  · obtain ⟨p, hp, hnormal, -⟩ :=
      hresolve "../..//./../../shelf/" "lists/main.json" (by decide)
    cases hup.symm.trans hp
    exact hnormal
  · obtain ⟨p, hp, -, hnone⟩ := hresolve "/..//./../shelf/" "lists/main.json" (by decide)
    cases hrooted.symm.trans hp
    exact hnone (by decide)

end SchemaTypes.Address

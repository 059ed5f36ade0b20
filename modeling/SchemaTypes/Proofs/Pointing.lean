/-
  Pointers to every place of a document.

  * `Json.Leads`: the keys and indices that lead from a value to another;
  * `Reference.pointerText`: such keys written as a pointer, each one escaped;
  * `parse_pointerText`: reading the pointer gives the keys back, unless there is only an empty one;
  * `pointer_reaches`: **so the pointer leads where the keys do.**
-/
import SchemaTypes.Proofs.Escapes
import SchemaTypes.Proofs.Pointers

namespace SchemaTypes

namespace Json

/-- Keys lead from a value to another: those of fields are their names, those of items are decimal
    digits that stand for their index, a number of 64 bits. -/
inductive Leads : Json → List String → Json → Prop
  | here {v : Json} : Leads v [] v
  | field {fields : Fields} {k : String} {ks : List String} {v w : Json}
      (hk : fields.lookup k = some v) (h : Leads v ks w) : Leads (.object fields) (k :: ks) w
  | item {items : List Json} {k : String} {i : Nat} {ks : List String} {v w : Json}
      (hk : Decimal k i) (hi : i < UInt64.size) (hv : items[i]? = some v) (h : Leads v ks w) :
      Leads (.array items) (k :: ks) w

/-- A reference walks where its keys lead. -/
theorem Leads.walk_eq {v w : Json} {ks : List String} (h : v.Leads ks w) (r : Reference)
    (doc : Json) (walked : List Step) : r.walk doc walked v (ks.map .key) = .ok w := by
  induction h generalizing walked with
  | here => rfl
  | field hk _ ih =>
    rw [List.map_cons, Reference.walk]
    exact except_bind_eq_ok.2 ⟨_, Reference.lookupKey_object hk _, ih _⟩
  | item hk hi hv _ ih =>
    rw [List.map_cons, Reference.walk]
    exact except_bind_eq_ok.2 ⟨_, Reference.lookupKey_array hk hi hv _, ih _⟩

end Json

namespace Reference

open Resolver (pointer)

variable {selected : Char → Bool} {ks : List String} {doc v : Json}

/-- **A pointer that consists of keys leads where they do.** -/
theorem lookup_pointer (h : doc.Leads ks v) (hv : v.isSchema = true) :
    (pointer ks).lookup doc = .ok v :=
  lookup_eq_ok_iff.2 ⟨h.walk_eq (pointer ks) doc [.root], hv⟩

/-- The pointer with some keys, written as a reference into the document itself. -/
def pointerText (selected : Char → Bool) (ks : List String) : String :=
  "#/" ++ "/".intercalate (ks.map (Address.escapeSegment selected))

/-- The segments of a pointer, with the slashes between them. -/
def segments (selected : Char → Bool) (ks : List String) : List Char :=
  ['/'].intercalate (ks.map fun k => (Address.escapeSegment selected k).toList)

theorem toList_pointerText :
    (pointerText selected ks).toList = '#' :: '/' :: segments selected ks := by
  rw [pointerText, String.toList_append, String.toList_intercalate, List.map_map]
  rfl

/-- The segments take no room only where there are none, or one that is empty. -/
theorem segments_ne_nil (h : selected '%' = true) (hks : ks ≠ []) (hempty : ks ≠ [""]) :
    segments selected ks ≠ [] := by
  match ks with
  | [] => exact absurd rfl hks
  | [k] =>
    have hk : k ≠ "" := fun hk => hempty (hk ▸ rfl)
    simpa [segments] using Address.escapeSegment_ne_empty h hk
  | k :: k' :: ks => simp [segments, List.intercalate]

/-- Slashes stand between segments only, so that splitting gives the segments back. -/
theorem splitOn_segments (h : selected '%' = true) (hks : ks ≠ []) :
    ((segments selected ks).splitOn '/').map
      (fun p => Step.key (Address.decodeSegment (String.ofList p))) = ks.map .key := by
  rw [segments, List.splitOn_intercalate '/' _ (by simpa using hks), List.map_map]
  · refine List.map_congr_left fun k _ => ?_
    simp [Address.decodeSegment_escapeSegment h]
  · intro p hp
    obtain ⟨k, -, rfl⟩ := List.mem_map.1 hp
    exact Address.slash_not_mem_escapeSegment k

theorem parsePath_slash (cs : List Char) : parsePath (String.ofList ('/' :: cs)) =
    .root :: if cs.isEmpty then []
      else (cs.splitOn '/').map fun p => .key (Address.decodeSegment (String.ofList p)) := by
  rw [parsePath, String.toList_ofList]
  rfl

/-- **Reading a written pointer gives its keys back.** -/
theorem parse_pointerText (h : selected '%' = true) (hks : ks ≠ [""]) :
    parse (pointerText selected ks) = pointer ks := by
  have hsplit : Address.splitFragment (pointerText selected ks) =
      ("", some (String.ofList ('/' :: segments selected ks))) := by
    rw [Address.splitFragment, toList_pointerText]
    rfl
  have hpath : parsePath (String.ofList ('/' :: segments selected ks)) =
      .root :: ks.map .key := by
    rw [parsePath_slash]
    by_cases hnil : ks = []
    · rw [hnil]
      rfl
    · rw [if_neg (by simpa using segments_ne_nil h hnil hks), splitOn_segments h hnil]
  have hfragment : (String.ofList ('/' :: segments selected ks)).isEmpty = false := by simp
  simp only [parse, hsplit, Option.getD_some, hfragment, Bool.false_eq_true, if_false, hpath]
  rfl

/-- **A pointer leads to every place of a document.**  Whatever characters are escaped besides
    percent signs, the keys of a place, escaped and joined by slashes, are read back as they are,
    unless there is only an empty one; and looking them up gives the schema that is there. -/
theorem pointer_reaches (hselected : selected '%' = true) (hks : ks ≠ [""])
    (hleads : doc.Leads ks v) (hv : v.isSchema = true) :
    (parse (pointerText selected ks)).path = .root :: ks.map .key ∧
      (parse (pointerText selected ks)).lookup doc = .ok v := by
  rw [parse_pointerText hselected hks]
  exact ⟨rfl, lookup_pointer hleads hv⟩

/-- A document whose keys need escapes, or are digits, or empty. -/
def thicket : Json :=
  .object [("~1/%#", .object [("", .array [.null, .object [("01", .object [("é", .bool true)])]])])]

theorem pointer_reaches_thicket : thicket.Leads ["~1/%#", "", "01", "01", "é"] (.bool true) ∧
    pointerText (fun c => c = '%' || 127 < c.toNat) ["~1/%#", "", "01", "01", "é"] =
      "#/~01~1%25#//01/01/%C3%A9" ∧
    (parse "#/~01~1%25#//01/01/%C3%A9").lookup thicket = .ok (.bool true) := by
  have htext : pointerText (fun c => c = '%' || 127 < c.toNat) ["~1/%#", "", "01", "01", "é"] =
      "#/~01~1%25#//01/01/%C3%A9" := by decide
  have hleads : thicket.Leads ["~1/%#", "", "01", "01", "é"] (.bool true) :=
    .field rfl <| .field rfl <|
      .item (i := 1) ⟨by decide, by simp, by decide⟩ (by decide) rfl <|
        .field rfl <| .field rfl .here
  refine ⟨hleads, htext, ?_⟩
  rw [← htext]
  exact (pointer_reaches (by decide) (by decide) hleads rfl).2

end Reference

end SchemaTypes

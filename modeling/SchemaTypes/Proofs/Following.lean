/-
  Where paths lead in a document.

  `Json.follow` takes the steps of a path as `Reference.lookup` does, but leaves out its checks
  (`follow_of_lookup`), so that it also says where the locations of a conversion lie
  (`follow_push_field`, `follow_push_item`).
-/
import SchemaTypes.OrderedMap
import SchemaTypes.Resolver

namespace SchemaTypes

theorem except_bind_eq_ok {ε α β : Type} {x : Except ε α} {f : α → Except ε β} {b : β} :
    (x >>= f) = .ok b ↔ ∃ y, x = .ok y ∧ f y = .ok b := by
  cases x <;> simp [bind, Except.bind]

theorem mem_of_lookup {κ ν : Type} [BEq κ] [LawfulBEq κ] {l : List (κ × ν)} {k : κ} {v : ν}
    (h : l.lookup k = some v) : (k, v) ∈ l := by
  obtain ⟨before, after, rfl, -⟩ := List.lookup_eq_some_iff.1 h
  exact List.mem_append_right before List.mem_cons_self

/-! ## Indices -/

namespace Json

/-- The number that decimal digits stand for. -/
def decimal? (digits : List Char) : Option Nat :=
  if digits.isEmpty then none
  else digits.foldl (fun acc c => do return (← acc) * 10 + (← Text.digit? c)) (some 0)

/-- The position that a key of an array stands for: decimal digits, perhaps after a plus
    sign. -/
def position? (key : String) : Option Nat :=
  match key.toList with
  | '+' :: cs => decimal? cs
  | cs => decimal? cs

/-- Positions of 64 bits are those that keys of arrays stand for. -/
theorem arrayIndex?_eq_some_iff {key : String} {i : Nat} :
    arrayIndex? key = some i ↔ position? key = some i ∧ i < UInt64.size := by
  have hdigits : ∀ digits : List Char,
      (if digits.isEmpty then none else
        (digits.foldl (fun acc c => do return (← acc) * 10 + (← Text.digit? c)) (some 0)).filter
          fun n => decide (n < UInt64.size)) = some i ↔
        decimal? digits = some i ∧ i < UInt64.size := by
    intro digits
    unfold decimal?
    by_cases hd : digits.isEmpty
    · rw [if_pos hd, if_pos hd]
      simp
    · rw [if_neg hd, if_neg hd, Option.filter_eq_some_iff, decide_eq_true_iff]
  by_cases hplus : ∃ cs, key.toList = '+' :: cs
  · obtain ⟨cs, hcs⟩ := hplus
    unfold arrayIndex? position?
    rw [hcs]
    exact hdigits cs
  · have hposition : position? key = decimal? key.toList := by
      unfold position?
      split
      · next cs hcs => exact absurd ⟨cs, hcs⟩ hplus
      · rfl
    rw [hposition]
    unfold arrayIndex?
    split
    · next cs hcs => exact absurd ⟨cs, hcs⟩ hplus
    · exact hdigits _

theorem position?_of_arrayIndex? {key : String} {i : Nat} (h : arrayIndex? key = some i) :
    position? key = some i :=
  (arrayIndex?_eq_some_iff.1 h).1

theorem foldl_digits {cs : List Char} (hcs : ∀ c ∈ cs, c.isDigit = true) (n : Nat) :
    cs.foldl (fun acc c => do return (← acc) * 10 + (← Text.digit? c)) (some n) =
      some (Nat.ofDigitChars 10 cs n) := by
  induction cs generalizing n with
  | nil => rfl
  | cons c cs ih =>
    have hc : Text.digit? c = some (c.toNat - '0'.toNat) := by
      have hc := Char.isDigit_iff_toNat.1 (hcs c List.mem_cons_self)
      exact if_pos hc
    rw [List.foldl_cons, Nat.ofDigitChars_cons, ← ih fun c h => hcs c (List.mem_cons_of_mem _ h)]
    simp [hc, Nat.mul_comm]

/-- A text of decimal digits that stand for a number. -/
def Decimal (key : String) (i : Nat) : Prop :=
  key.toList ≠ [] ∧ (∀ c ∈ key.toList, c.isDigit = true) ∧ Nat.ofDigitChars 10 key.toList 0 = i

theorem position?_of_decimal {key : String} {i : Nat} (h : Decimal key i) :
    position? key = some i := by
  obtain ⟨hne, hdigit, rfl⟩ := h
  unfold position?
  split
  · next cs hcs => exact absurd (hdigit '+' (hcs ▸ List.mem_cons_self)) (by decide)
  · unfold decimal?
    rw [if_neg (by simpa using hne), foldl_digits hdigit]

theorem decimal_toString (i : Nat) : Decimal (toString i) i := by
  unfold Decimal
  rw [Nat.toString_eq_ofList_toDigits, String.toList_ofList]
  exact ⟨by simp, fun c hc => Nat.isDigit_of_mem_toDigits (by decide) (by decide) hc,
    Nat.ofDigitChars_ten_toDigits⟩

/-- The text of a number stands for it. -/
theorem position?_toString (i : Nat) : position? (toString i) = some i :=
  position?_of_decimal (decimal_toString i)

theorem toString_injective {i j : Nat} (h : toString i = toString j) : i = j :=
  Option.some.inj ((position?_toString i).symm.trans (h ▸ position?_toString j))

/-! ## Paths -/

/-- The value below a value at a key. -/
def child? (v : Json) (key : String) : Option Json :=
  match v with
  | array items => (position? key).bind (items[·]?)
  | object fields => fields.lookup key
  | _ => none

/-- The value that steps lead to from a value of a document. -/
def follow (doc v : Json) : List Step → Option Json
  | [] => some v
  | .root :: rest => follow doc doc rest
  | .key k :: rest => (v.child? k).bind (follow doc · rest)
  | _ :: _ => none

theorem follow_append (doc v : Json) (p q : List Step) :
    follow doc v (p ++ q) = (follow doc v p).bind (follow doc · q) := by
  fun_induction follow doc v p with
  | case1 => rfl
  | case2 v rest ih => exact ih
  | case3 v k rest ih =>
    rw [List.cons_append, follow, Option.bind_assoc]
    exact congrArg _ (funext ih)
  | case4 => simp_all [follow]

/-- What holds of a document and of all that is below where it holds is true of what a path
    leads to. -/
theorem follow_induction {P : Json → Prop} {doc v w : Json} {p : List Step} (hdoc : P doc)
    (hchild : ∀ {v w k}, P v → v.child? k = some w → P w) (hv : P v)
    (h : doc.follow v p = some w) : P w := by
  fun_induction Json.follow doc v p with
  | case1 =>
    cases h
    exact hv
  | case2 v rest ih => exact ih hdoc h
  | case3 v k rest ih =>
    obtain ⟨x, hx, h⟩ := Option.bind_eq_some_iff.1 h
    exact ih x (hchild hv hx) h
  | case4 => cases h

/-! ## Distinct keys -/

theorem ItemsKeysDistinct.of_mem {v : Json} :
    ∀ {items : List Json}, ItemsKeysDistinct items → v ∈ items → v.KeysDistinct
  | _ :: _, h, hv => by
    rcases List.mem_cons.1 hv with rfl | hv
    · exact h.1
    · exact of_mem h.2 hv

theorem FieldsKeysDistinct.of_mem {e : String × Json} :
    ∀ {fields : Fields}, FieldsKeysDistinct fields → e ∈ fields → e.2.KeysDistinct
  | _ :: _, h, he => by
    rcases List.mem_cons.1 he with rfl | he
    · exact h.1
    · exact of_mem h.2 he

theorem lookup_of_mem {fields : Fields} (hd : (fields.map Prod.fst).Nodup) {e : String × Json}
    (he : e ∈ fields) : fields.lookup e.1 = some e.2 := by
  exact (OrderedMap.get?_eq_some_iff (m := ⟨fields, hd⟩)).2 he

theorem KeysDistinct.child? {v w : Json} {k : String} (hv : v.KeysDistinct)
    (h : v.child? k = some w) : w.KeysDistinct := by
  cases v with
  | array items =>
    obtain ⟨i, -, hi⟩ := Option.bind_eq_some_iff.1 h
    exact ItemsKeysDistinct.of_mem hv (List.mem_of_getElem? hi)
  | object fields => exact FieldsKeysDistinct.of_mem hv.2 (mem_of_lookup h)
  | _ => cases h

end Json

namespace Reference

theorem checkObject_eq_ok {v : Json} {place : Reference} {fields : Json.Fields} :
    checkObject v place = .ok fields ↔ v = .object fields := by
  cases v <;> simp [checkObject]

/-- A key is taken from a value whatever the place that errors name. -/
theorem lookupKey_eq_ok {k : String} {v w : Json} {place : Reference}
    (h : lookupKey k v place = .ok w) :
    v.child? k = some w ∧ ∀ place', lookupKey k v place' = .ok w := by
  unfold lookupKey at h
  split at h
  · next items =>
    split at h
    · cases h
    · next i hi =>
      split at h
      · next item hitem =>
        cases h
        refine ⟨?_, fun place' => by simp only [lookupKey, hi, hitem]⟩
        rw [Json.child?, Json.position?_of_arrayIndex? hi, Option.bind_some, hitem]
      · cases h
  · obtain ⟨fields, hfields, hw⟩ := except_bind_eq_ok.1 h
    obtain rfl := checkObject_eq_ok.1 hfields
    split at hw
    · next x hx =>
      cases hw
      refine ⟨hx, fun place' => ?_⟩
      simp only [lookupKey, checkObject, bind, Except.bind, hx]
    · cases hw

theorem lookupKey_object {fields : Json.Fields} {k : String} {w : Json}
    (h : fields.lookup k = some w) (place : Reference) :
    lookupKey k (.object fields) place = .ok w :=
  except_bind_eq_ok.2 ⟨fields, rfl, by simp only [h]⟩

/-- Digits lead to an item, if they stand for a number of 64 bits. -/
theorem lookupKey_array {items : List Json} {k : String} {i : Nat} {w : Json}
    (hk : Json.Decimal k i) (hi : i < UInt64.size) (h : items[i]? = some w) (place : Reference) :
    lookupKey k (.array items) place = .ok w := by
  unfold lookupKey
  simp only [Json.arrayIndex?_eq_some_iff.2 ⟨Json.position?_of_decimal hk, hi⟩, h]

theorem walk_append (r : Reference) (doc : Json) (walked : List Step) (v : Json)
    (p q : List Step) : walk r doc walked v (p ++ q) =
      walk r doc walked v p >>= fun w => walk r doc (walked ++ p) w q := by
  fun_induction walk r doc walked v p with
  | case1 => simp [bind, Except.bind]
  | case2 walked v rest ih =>
    rw [List.cons_append, walk, ih, List.append_assoc]
    rfl
  | case3 walked v k rest ih =>
    rw [List.cons_append, walk, bind_assoc]
    refine congrArg _ (funext fun w => ?_)
    rw [ih, List.append_assoc]
    rfl
  | case4 walked v => simp_all [walk, bind, Except.bind]

theorem walk_eq_ok {r : Reference} {doc v w : Json} {walked rest : List Step}
    (h : walk r doc walked v rest = .ok w) :
    doc.follow v rest = some w ∧ ∀ r' : Reference, walk r' doc walked v rest = .ok w := by
  fun_induction walk r doc walked v rest with
  | case1 =>
    cases h
    exact ⟨rfl, fun _ => rfl⟩
  | case2 walked v rest ih => exact ih h
  | case3 walked v k rest ih =>
    obtain ⟨x, hx, h⟩ := except_bind_eq_ok.1 h
    obtain ⟨hchild, hplace⟩ := lookupKey_eq_ok hx
    obtain ⟨hfollow, hwalk⟩ := ih x h
    refine ⟨by rw [Json.follow, hchild, Option.bind_some, hfollow], fun r' => ?_⟩
    rw [walk, hplace]
    exact hwalk r'
  | case4 => cases h

theorem checkSchema_eq_ok {v : Json} {place : Reference} :
    checkSchema v place = .ok () ↔ v.isSchema = true := by
  cases v <;> simp [checkSchema, checkObject, Json.isSchema, Except.map]

theorem lookup_eq_ok_iff {r : Reference} {doc v : Json} :
    r.lookup doc = .ok v ↔ walk r doc [] doc r.path = .ok v ∧ v.isSchema = true := by
  unfold lookup
  rw [except_bind_eq_ok]
  constructor
  · rintro ⟨w, hw, h⟩
    obtain ⟨⟨⟩, hc, h⟩ := except_bind_eq_ok.1 h
    cases h
    exact ⟨hw, checkSchema_eq_ok.1 hc⟩
  · rintro ⟨hw, hs⟩
    exact ⟨v, hw, except_bind_eq_ok.2 ⟨(), checkSchema_eq_ok.2 hs, rfl⟩⟩

/-- **A reference leads where its path does.** -/
theorem follow_of_lookup {r : Reference} {doc v : Json} (h : r.lookup doc = .ok v) :
    doc.follow doc r.path = some v :=
  (walk_eq_ok (lookup_eq_ok_iff.1 h).1).1

/-- What a reference leads to in a document does not depend on its address. -/
theorem lookup_congr {r s : Reference} {doc v : Json} (hp : s.path = r.path)
    (h : r.lookup doc = .ok v) : s.lookup doc = .ok v := by
  obtain ⟨hw, hs⟩ := lookup_eq_ok_iff.1 h
  exact lookup_eq_ok_iff.2 ⟨hp ▸ (walk_eq_ok hw).2 s, hs⟩

end Reference

/-! ## Locations -/

namespace Location

variable {doc : Json} {l : Location}

theorem path_push (l : Location) (keys : List String) :
    (l.push keys).canonical.path = l.canonical.path ++ keys.map .key := rfl

theorem follow_push_field {fields : Json.Fields} {k : String} {c : Json}
    (h : doc.follow doc l.canonical.path = some (.object fields)) (hc : fields.lookup k = some c) :
    doc.follow doc (l.push [k]).canonical.path = some c := by
  rw [path_push, Json.follow_append, h]
  simp [Json.follow, Json.child?, hc]

theorem follow_push_item {items : List Json} {i : Nat} {c : Json}
    (h : doc.follow doc l.canonical.path = some (.array items)) (hc : items[i]? = some c) :
    doc.follow doc (l.push [toString i]).canonical.path = some c := by
  rw [path_push, Json.follow_append, h]
  simp only [List.map_cons, List.map_nil, Option.bind_some, Json.follow, Json.child?,
    Json.position?_toString, hc]

theorem push_push (l : Location) (ks ks' : List String) :
    (l.push ks).push ks' = l.push (ks ++ ks') := by
  simp [push, append, Reference.append, List.append_assoc]

end Location

end SchemaTypes

/-
  Escapes are undone.

  * `Utf8.decode_encode`: reading the bytes of characters gives the characters back;
  * `Percent.decode_encode`: so does undoing percent escapes, whatever else is escaped, if percent
    signs are;
  * `Address.decodeSegment_escapeSegment`: so does decoding a segment that was escaped for a
    pointer, which has no slash in it (`slash_not_mem_escapeSegment`).
-/
import SchemaTypes.Address

namespace SchemaTypes

namespace Text

/-! ## UTF-8 -/

namespace Utf8

variable {b : Nat} {p : Partial} {c : Char} {bs : List UInt8}

theorem start_two (h : 0xc2 ≤ b) (h' : b < 0xe0) : start b = .begun ⟨b - 0xc0, 1, 0x80, 0xbf⟩ := by
  unfold start
  rw [if_neg (by omega), if_neg (by omega), if_pos h']

theorem start_three (h : 0xe0 ≤ b) (h' : b < 0xf0) : start b = .begun
    ⟨b - 0xe0, 2, if b = 0xe0 then 0xa0 else 0x80, if b = 0xed then 0x9f else 0xbf⟩ := by
  unfold start
  rw [if_neg (by omega), if_neg (by omega), if_neg (by omega), if_pos h']

theorem start_four (h : 0xf0 ≤ b) (h' : b < 0xf5) : start b = .begun
    ⟨b - 0xf0, 3, if b = 0xf0 then 0x90 else 0x80, if b = 0xf4 then 0x8f else 0xbf⟩ := by
  unfold start
  rw [if_neg (by omega), if_neg (by omega), if_neg (by omega), if_neg (by omega), if_pos h']

/-- A byte given by its number is read as that number. -/
theorem decodeFrom_char (hb : b < 256) (h : start b = .char c) :
    decodeFrom none (UInt8.ofNat b :: bs) = c :: decodeFrom none bs := by
  rw [decodeFrom]
  simp only [UInt8.toNat_ofNat_of_lt' hb, h]

theorem decodeFrom_begun (hb : b < 256) (h : start b = .begun p) :
    decodeFrom none (UInt8.ofNat b :: bs) = decodeFrom (some p) bs := by
  rw [decodeFrom]
  simp only [UInt8.toNat_ofNat_of_lt' hb, h]

section

variable {value n low high w x y z : Nat}

/-- A byte that may come next and is not the last one adds six bits. -/
theorem decodeFrom_next (hy : y < 64) (hlow : low ≤ y + 128) (hhigh : y + 128 ≤ high) :
    decodeFrom (some ⟨value, n + 2, low, high⟩) (UInt8.ofNat (y + 128) :: bs) =
      decodeFrom (some ⟨value * 64 + y, n + 1, 0x80, 0xbf⟩) bs := by
  rw [decodeFrom]
  simp only [UInt8.toNat_ofNat_of_lt' (show y + 128 < 256 by omega), if_pos (And.intro hlow hhigh),
    if_neg (show ¬n + 2 ≤ 1 by omega), Nat.add_sub_cancel]
  rfl

/-- The last byte completes the character. -/
theorem decodeFrom_last (hy : y < 64) (hlow : low ≤ y + 128) (hhigh : y + 128 ≤ high) :
    decodeFrom (some ⟨value, 1, low, high⟩) (UInt8.ofNat (y + 128) :: bs) =
      Char.ofNat (value * 64 + y) :: decodeFrom none bs := by
  rw [decodeFrom]
  simp only [UInt8.toNat_ofNat_of_lt' (show y + 128 < 256 by omega), if_pos (And.intro hlow hhigh),
    if_pos (Nat.le_refl 1), Nat.add_sub_cancel]

theorem decodeFrom_two (hx : 2 ≤ x) (hx' : x < 32) (hy : y < 64) :
    decodeFrom none (UInt8.ofNat (x + 192) :: UInt8.ofNat (y + 128) :: bs) =
      Char.ofNat (x * 64 + y) :: decodeFrom none bs := by
  rw [decodeFrom_begun (by omega) (start_two (by omega) (by omega)), Nat.add_sub_cancel,
    decodeFrom_last hy (by omega) (by omega)]

/-- Three bytes are neither for what two would do, nor for a surrogate. -/
theorem decodeFrom_three (hx : x < 16) (hy : y < 64) (hz : z < 64) (hlong : x = 0 → 32 ≤ y)
    (hsurrogate : x = 13 → y < 32) :
    decodeFrom none
        (UInt8.ofNat (x + 224) :: UInt8.ofNat (y + 128) :: UInt8.ofNat (z + 128) :: bs) =
      Char.ofNat ((x * 64 + y) * 64 + z) :: decodeFrom none bs := by
  rw [decodeFrom_begun (by omega) (start_three (by omega) (by omega)), Nat.add_sub_cancel,
    decodeFrom_next hy (by split <;> omega) (by split <;> omega),
    decodeFrom_last hz (by omega) (by omega)]

/-- Four bytes are neither for what three would do, nor for more than characters are. -/
theorem decodeFrom_four (hw : w ≤ 4) (hx : x < 64) (hy : y < 64) (hz : z < 64)
    (hlong : w = 0 → 16 ≤ x) (hmax : w = 4 → x < 16) :
    decodeFrom none (UInt8.ofNat (w + 240) :: UInt8.ofNat (x + 128) :: UInt8.ofNat (y + 128) ::
        UInt8.ofNat (z + 128) :: bs) =
      Char.ofNat (((w * 64 + x) * 64 + y) * 64 + z) :: decodeFrom none bs := by
  rw [decodeFrom_begun (by omega) (start_four (by omega) (by omega)), Nat.add_sub_cancel,
    decodeFrom_next hx (by split <;> omega) (by split <;> omega),
    decodeFrom_next hy (by omega) (by omega), decodeFrom_last hz (by omega) (by omega)]

end

/-- **The bytes of a character are read as that character**, however many they are. -/
theorem decodeFrom_utf8EncodeChar (c : Char) (bs : List UInt8) :
    decodeFrom none (String.utf8EncodeChar c ++ bs) = c :: decodeFrom none bs := by
  have hvalid : c.val.toNat.isValidChar := c.valid
  have hof : Char.ofNat c.val.toNat = c := Char.ofNat_toNat c
  unfold String.utf8EncodeChar
  generalize c.val.toNat = v at hvalid hof ⊢
  unfold Nat.isValidChar at hvalid
  extract_lets
  split
  · refine decodeFrom_char (by omega) ?_
    rw [start, if_pos (by omega), hof]
  split
  · have hv : v / 64 % 32 * 64 + v % 64 = v := by omega
    refine (decodeFrom_two (by omega) (by omega) (by omega)).trans ?_
    rw [hv, hof]
    rfl
  split
  · have hv : (v / 4096 % 16 * 64 + v / 64 % 64) * 64 + v % 64 = v := by omega
    refine (decodeFrom_three (by omega) (by omega) (by omega) (by omega) (by omega)).trans ?_
    rw [hv, hof]
    rfl
  · have hv : ((v / 262144 % 8 * 64 + v / 4096 % 64) * 64 + v / 64 % 64) * 64 + v % 64 = v := by
      omega
    refine (decodeFrom_four (by omega) (by omega) (by omega) (by omega) (by omega)
      (by omega)).trans ?_
    rw [hv, hof]
    rfl

/-- **Reading the bytes of characters gives them back.** -/
theorem decode_encode (cs : List Char) : decode (encode cs) = cs := by
  unfold decode
  induction cs with
  | nil => rfl
  | cons c cs ih =>
    rw [encode, List.flatMap_cons, decodeFrom_utf8EncodeChar]
    exact congrArg (c :: ·) ih

end Utf8

/-! ## Percent escapes -/

theorem hexDigit?_hexDigit : ∀ n < 16, hexDigit? (hexDigit 'A' n) = some n := by decide

theorem hexDigit_ne_slash : ∀ n < 16, hexDigit 'A' n ≠ '/' := by decide

namespace Percent

variable {selected : Char → Bool} {cs : List Char}

/-- An escape stands for its byte. -/
theorem bytes_escape (b : UInt8) (cs : List Char) : bytes (escape b ++ cs) = b :: bytes cs := by
  have hb : b.toNat < 256 := b.toNat_lt
  show bytes ('%' :: hexDigit 'A' (b.toNat / 16) :: hexDigit 'A' (b.toNat % 16) :: cs) = _
  rw [bytes, hexDigit?_hexDigit _ (by omega), hexDigit?_hexDigit _ (by omega)]
  dsimp only
  rw [Nat.div_add_mod', UInt8.ofNat_toNat]

theorem bytes_flatMap_escape (bs : List UInt8) (cs : List Char) :
    bytes (bs.flatMap escape ++ cs) = bs ++ bytes cs := by
  induction bs with
  | nil => rfl
  | cons b bs ih =>
    rw [List.flatMap_cons, List.append_assoc, bytes_escape, ih]
    rfl

/-- **What is escaped stands for its bytes**, and what is not, for its own. -/
theorem bytes_encode (h : selected '%' = true) (cs : List Char) :
    bytes (encode selected cs) = Utf8.encode cs := by
  induction cs with
  | nil => rfl
  | cons c cs ih =>
    rw [Utf8.encode, List.flatMap_cons, ← Utf8.encode, ← ih, encode, List.flatMap_cons, ← encode]
    split
    · exact bytes_flatMap_escape _ _
    · next hc =>
      refine bytes.eq_3 c _ ?_
      rintro a b rest rfl -
      exact hc h

theorem decode_encode (h : selected '%' = true) (cs : List Char) :
    decode (encode selected cs) = cs := by
  rw [decode, bytes_encode h, Utf8.decode_encode]

theorem slash_not_mem_encode (h : '/' ∉ cs) : '/' ∉ encode selected cs := by
  intro hmem
  obtain ⟨c, hc, hmem⟩ := List.mem_flatMap.1 hmem
  split at hmem
  · obtain ⟨b, -, hb⟩ := List.mem_flatMap.1 hmem
    have hlt : b.toNat < 256 := b.toNat_lt
    simp only [escape, List.mem_cons, List.not_mem_nil, or_false] at hb
    rcases hb with hb | hb | hb
    · exact absurd hb (by decide)
    · exact hexDigit_ne_slash _ (by omega) hb.symm
    · exact hexDigit_ne_slash _ (by omega) hb.symm
  · exact h (List.mem_singleton.1 hmem ▸ hc)

end Percent

end Text

/-! ## Segments of pointers -/

namespace Address

variable {selected : Char → Bool}

/-- The escape of a character in a pointer. -/
def escapeChar (c : Char) : List Char :=
  if c = '~' then ['~', '0'] else if c = '/' then ['~', '1'] else [c]

/-- A key as a segment of a pointer: its tildes and slashes are escaped, then the bytes of the
    selected characters. -/
def escapeSegment (selected : Char → Bool) (key : String) : String :=
  String.ofList (Text.Percent.encode selected (key.toList.flatMap escapeChar))

theorem unescape_cons {c : Char} (h : c ≠ '~') (cs : List Char) :
    unescape (c :: cs) = c :: unescape cs :=
  unescape.eq_3 c cs (fun _ hc _ => h hc) fun _ hc _ => h hc

theorem unescape_escape (cs : List Char) : unescape (cs.flatMap escapeChar) = cs := by
  induction cs with
  | nil => rfl
  | cons c cs ih =>
    rw [List.flatMap_cons, escapeChar]
    split
    · next hc => rw [hc]; exact congrArg ('~' :: ·) ih
    split
    · next hc => rw [hc]; exact congrArg ('/' :: ·) ih
    · next hc _ => rw [List.singleton_append, unescape_cons hc, ih]

theorem slash_not_mem_escape (cs : List Char) : '/' ∉ cs.flatMap escapeChar := by
  intro h
  obtain ⟨c, -, hc⟩ := List.mem_flatMap.1 h
  unfold escapeChar at hc
  split at hc
  · exact absurd hc (by decide)
  split at hc
  · exact absurd hc (by decide)
  · next hne => exact hne (List.mem_singleton.1 hc).symm

/-- **Decoding undoes the escapes of a segment.** -/
theorem decodeSegment_escapeSegment (h : selected '%' = true) (key : String) :
    decodeSegment (escapeSegment selected key) = key := by
  rw [decodeSegment, escapeSegment, String.toList_ofList, Text.Percent.decode_encode h,
    unescape_escape, String.ofList_toList]

theorem slash_not_mem_escapeSegment (key : String) :
    '/' ∉ (escapeSegment selected key).toList := by
  rw [escapeSegment, String.toList_ofList]
  exact Text.Percent.slash_not_mem_encode (slash_not_mem_escape _)

/-- Only the empty key is an empty segment. -/
theorem escapeSegment_ne_empty (h : selected '%' = true) {key : String} (hkey : key ≠ "") :
    (escapeSegment selected key).toList ≠ [] := by
  intro hnil
  have hdecoded := decodeSegment_escapeSegment h key
  rw [decodeSegment, hnil] at hdecoded
  exact hkey hdecoded.symm

end Address

end SchemaTypes

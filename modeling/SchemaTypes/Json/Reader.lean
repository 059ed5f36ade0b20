/-
  Reading JSON.

  The text is cut into tokens character by character (`tokens?`), and the tokens
  are put together with a stack of the arrays and objects that are still open
  (`ofTokens?`), so both walks are structural.  What a selection leaves out has only to
  be well formed: texts may hold halves of characters there, and numbers may lie beyond
  the doubles.  Elsewhere at most 127 containers may be open at a time.  `parseSelected?`
  keeps every field that is selected; in what `parse?` reads, a key that stands twice has
  its first place and its last value (`keepLast`).

  Numbers: digits are gathered into a word of 64 bits as long as they fit
  (`Numeral`); an integer that fits is kept exactly, any other number is the word
  as a double times or through a power of ten, each step rounded (`scale?`).
-/
import SchemaTypes.Json
import SchemaTypes.Json.Selection
import SchemaTypes.Text.Digit

namespace SchemaTypes

open Text

/-! ## Numbers -/

namespace Number

/-- Digits gathered so far: they stand for `word * 10 ^ exponent`. -/
structure Numeral where
  word : Nat
  exponent : Int
  /-- Whether a digit was left out because the word was full. -/
  full : Bool

/-- The largest word. -/
def wordMax : Nat := UInt64.size - 1

/-- Digits before the point: one that does not fit counts as a power of ten, and
    so do those after it.  The rest of the text is returned too. -/
def gatherWhole (n : Numeral) : List Char → Numeral × List Char
  | [] => (n, [])
  | c :: cs =>
    match digit? c with
    | none => (n, c :: cs)
    | some d =>
      if n.full ∨ wordMax < n.word * 10 + d then
        gatherWhole { n with exponent := n.exponent + 1, full := true } cs
      else gatherWhole { n with word := n.word * 10 + d } cs

/-- Digits behind the point: one that does not fit ends the word, and those after
    it are left out. -/
def gatherFraction (n : Numeral) : List Char → Numeral × List Char
  | [] => (n, [])
  | c :: cs =>
    match digit? c with
    | none => (n, c :: cs)
    | some d =>
      if n.full ∨ wordMax < n.word * 10 + d then gatherFraction { n with full := true } cs
      else gatherFraction { n with word := n.word * 10 + d, exponent := n.exponent - 1 } cs

/-- The largest power of ten that scaling uses in one step. -/
def maxPower : Nat := 308

/-- `10 ^ e` as a double, for `e` up to `maxPower`. -/
def powerOfTen (e : Nat) : Binary64 := (Binary64.ofNat? (Nat.pow 10 e)).getD .zero

/-- `x * 10 ^ e` by one multiplication, or by divisions through `10 ^ 308` and one
    through what is left, each rounded; `none` beyond the finite doubles. -/
def scale? (x : Binary64) (e : Int) : Option Binary64 :=
  if e.natAbs ≤ maxPower then
    if 0 ≤ e then x.mul? (powerOfTen e.toNat) else x.div? (powerOfTen (-e).toNat)
  else if x.rank = 0 then some x
  else if 0 ≤ e then none
  else (x.div? (powerOfTen maxPower)).bind fun y => scale? y (e + maxPower)
termination_by (-e).toNat
decreasing_by
  rename_i h _ _
  simp only [maxPower] at h ⊢
  omega

/-- The double a numeral with a sign stands for. -/
def ofNumeral? (negative : Bool) (n : Numeral) : Option Number := do
  let x ← scale? (← Binary64.ofNat? n.word) n.exponent
  return .double (if negative then x.neg else x)

/-- A whole numeral: an integer if it fits, else a double.  Negative zero is a
    double. -/
def ofWord (negative : Bool) (word : Nat) : Number :=
  if negative then
    if 0 < word ∧ word ≤ 0x8000000000000000 then .integer (-(word : Int))
    else .double ((Binary64.ofNat? word).getD .zero).neg
  else .integer word

/-- The value of a row of one or more digits. -/
def digits? : List Char → Option Nat
  | [] => none
  | cs => cs.foldl (fun acc c => do return (← acc) * 10 + (← digit? c)) (some 0)

/-- The exponent part behind the letter: an optional sign and digits. -/
def exponent? : List Char → Option Int
  | '+' :: cs => (digits? cs).map Int.ofNat
  | '-' :: cs => (digits? cs).map fun n => -(n : Int)
  | cs => (digits? cs).map Int.ofNat

/-- What may follow the digits: nothing, or an exponent part. -/
def withExponent? (negative : Bool) (n : Numeral) : List Char → Option (Option Number)
  | [] => some (ofNumeral? negative n)
  | c :: cs =>
    if c = 'e' ∨ c = 'E' then
      (exponent? cs).map fun e => ofNumeral? negative { n with exponent := n.exponent + e }
    else none

/-- A number without its sign. -/
def ofUnsigned? (negative : Bool) (cs : List Char) : Option (Option Number) :=
  let leading : Option (Numeral × List Char) := match cs with
    | '0' :: rest =>
      if (rest.head?.bind digit?).isSome then none else some (⟨0, 0, false⟩, rest)
    | c :: _ => if (digit? c).isSome then some (gatherWhole ⟨0, 0, false⟩ cs) else none
    | [] => none
  match leading with
  | none => none
  | some (n, []) =>
    some (if n.full then ofNumeral? negative n else some (ofWord negative n.word))
  | some (n, '.' :: rest) =>
    if (rest.head?.bind digit?).isSome then
      let (m, rest) := gatherFraction { n with full := false } rest
      withExponent? negative m rest
    else none
  | some (n, rest) => withExponent? negative n rest

/-- The number a text stands for, which can lie beyond the doubles. -/
def parse? : List Char → Option (Option Number)
  | '-' :: cs => ofUnsigned? true cs
  | cs => ofUnsigned? false cs

end Number

namespace Json

/-! ## Tokens -/

/-- The smallest pieces of a document.  A text has no value if half of a character
    stands alone in it, nor has a number beyond the doubles. -/
inductive Token where
  | openArray | closeArray | openObject | closeObject | comma | colon
  | string (s : Option String)
  | number (n : Option Number)
  | null
  | bool (b : Bool)

/-- Gathered text in reverse; none if half of a character stands alone in it. -/
abbrev Gathered := Option (List Char)

/-- What the characters read so far have begun. -/
inductive Pending where
  | between
  | string (text : Gathered)
  | escape (text : Gathered)
  /-- A code unit after `\u`: `left` digits are missing; `high` is the first half of
      a pair whose second half this should be. -/
  | unicode (text : Gathered) (high : Option Nat) (left value : Nat)
  /-- A first half was read: the second should follow at once. -/
  | pair (text : Gathered) (high : Nat) (sawBackslash : Bool)
  | number (text : List Char)
  | word (text : List Char)

/-- The character of an escape of one letter. -/
def escapeValue? (c : Char) : Option Char :=
  if c = '"' ∨ c = '\\' ∨ c = '/' then some c
  else if c = 'b' then some '\x08'
  else if c = 'f' then some '\x0c'
  else if c = 'n' then some '\n'
  else if c = 'r' then some '\r'
  else if c = 't' then some '\t'
  else none

/-- Takes a complete code unit: a character, or one half of a pair. -/
def takeUnit (text : Gathered) (high : Option Nat) (unit : Nat) : Pending :=
  let isHigh := decide (0xd800 ≤ unit ∧ unit < 0xdc00)
  let isLow := decide (0xdc00 ≤ unit ∧ unit < 0xe000)
  match high with
  | some h =>
    if isLow then
      .string (text.map (Char.ofNat (0x10000 + (h - 0xd800) * 0x400 + (unit - 0xdc00)) :: ·))
    else .string none
  | none =>
    if isLow then .string none
    else if isHigh then .pair text unit false
    else .string (text.map (Char.ofNat unit :: ·))

/-- Blank characters between tokens. -/
def isBlank (c : Char) : Bool := c = ' ' || c = '\n' || c = '\t' || c = '\r'

/-- Characters a number may hold. -/
def isNumberChar (c : Char) : Bool :=
  (digit? c).isSome || c = '+' || c = '-' || c = '.' || c = 'e' || c = 'E'

/-- Characters a word may hold. -/
def isWordChar (c : Char) : Bool := decide ('a' ≤ c ∧ c ≤ 'z')

/-- The token of a word. -/
def wordToken? (w : List Char) : Option Token :=
  if w = ['n', 'u', 'l', 'l'] then some .null
  else if w = ['t', 'r', 'u', 'e'] then some (.bool true)
  else if w = ['f', 'a', 'l', 's', 'e'] then some (.bool false)
  else none

/-- Reads a character where a token may begin: a token, and what is pending. -/
def begin? (c : Char) : Option (Option Token × Pending) :=
  if isBlank c then some (none, .between)
  else if c = '[' then some (some .openArray, .between)
  else if c = ']' then some (some .closeArray, .between)
  else if c = '\x7b' then some (some .openObject, .between)
  else if c = '\x7d' then some (some .closeObject, .between)
  else if c = ',' then some (some .comma, .between)
  else if c = ':' then some (some .colon, .between)
  else if c = '"' then some (none, .string (some []))
  else if (digit? c).isSome || c = '-' then some (none, .number [c])
  else if isWordChar c then some (none, .word [c])
  else none

/-- A character within a text. -/
def stringStep? (text : Gathered) (c : Char) : Option (List Token × Pending) :=
  if c = '"' then some ([.string (text.map fun cs => String.ofList cs.reverse)], .between)
  else if c = '\\' then some ([], .escape text)
  else if c.toNat < 0x20 then none
  else some ([], .string (text.map (c :: ·)))

/-- The character behind a backslash, where half of a pair may precede. -/
def escapeStep? (text : Gathered) (high : Option Nat) (c : Char) :
    Option (List Token × Pending) :=
  if c = 'u' then some ([], .unicode text high 4 0)
  else
    (escapeValue? c).map fun e => ([], .string (if high.isSome then none else text.map (e :: ·)))

/-- One more character: the tokens it completes, in order, and what is pending. -/
def step? (p : Pending) (c : Char) : Option (List Token × Pending) :=
  match p with
  | .between => (begin? c).map fun (t, q) => (t.toList, q)
  | .string text => stringStep? text c
  | .escape text => escapeStep? text none c
  | .unicode text high left value => do
    let value := value * 16 + (← hexDigit? c)
    if left ≤ 1 then return ([], takeUnit text high value)
    else return ([], .unicode text high (left - 1) value)
  | .pair text high sawBackslash =>
    if sawBackslash then escapeStep? text (some high) c
    else if c = '\\' then some ([], .pair text high true)
    else stringStep? none c
  | .number text =>
    if isNumberChar c then some ([], .number (c :: text))
    else do
      let n ← Number.parse? text.reverse
      let (t, q) ← begin? c
      return (.number n :: t.toList, q)
  | .word text =>
    if isWordChar c then some ([], .word (c :: text))
    else do
      let w ← wordToken? text.reverse
      let (t, q) ← begin? c
      return (w :: t.toList, q)

/-- The tokens that the end of the text completes. -/
def finish? : Pending → Option (List Token)
  | .between => some []
  | .number text => (Number.parse? text.reverse).map fun n => [.number n]
  | .word text => (wordToken? text.reverse).map fun w => [w]
  | _ => none

/-- Cuts the characters into tokens, `done` holding the earlier ones in reverse. -/
def tokensFrom? (p : Pending) (done : List Token) : List Char → Option (List Token)
  | [] => (finish? p).map fun ts => (ts.reverse ++ done).reverse
  | c :: cs =>
    match step? p c with
    | none => none
    | some (ts, q) => tokensFrom? q (ts.reverse ++ done) cs

/-- The tokens of a text. -/
def tokens? (cs : List Char) : Option (List Token) := tokensFrom? .between [] cs

/-! ## Values -/

/-- A container that is still open, with what of it counts; items and fields in
    reverse. -/
inductive Frame where
  | array (selection : Selection) (items : List Json)
  | object (selection : Selection) (fields : Fields) (key : Option String)

/-- What may come next. -/
inductive Expect where
  | value
  | valueOrClose
  | key
  | keyOrClose
  | colon
  | commaOrClose

/-- The largest number of containers that may be open at a time. -/
def depthLimit : Nat := 127

/-- The containers still open, innermost first, and what may come next; or the
    finished document. -/
inductive Reading where
  | inside (frames : List Frame) (expect : Expect)
  | complete (v : Json)

/-- What counts of the next value, where `whole` is what counts of the document. -/
def nextSelection (whole : Selection) : List Frame → Selection
  | [] => whole
  | .array s items :: _ => s.item items.length
  | .object s _ (some k) :: _ => s.field k
  | .object _ _ none :: _ => .nothing

/-- Puts a finished value where it belongs; none is a value that does not count. -/
def place? (v : Option Json) : List Frame → Option Reading
  | [] => v.map .complete
  | .array s items :: rest => some (.inside (.array s (v.toList ++ items) :: rest) .commaOrClose)
  | .object s fields (some k) :: rest =>
    some (.inside (.object s ((v.map fun v => (k, v)).toList ++ fields) none :: rest) .commaOrClose)
  | .object _ _ none :: _ => none

/-- Puts a value where it belongs, if it counts: then there has to be one. -/
def placeSelected? (s : Selection) (v : Option Json) (frames : List Frame) : Option Reading :=
  if s.isNothing then place? none frames else v.bind fun v => place? (some v) frames

/-- Opens a container, if there is room for one more; what does not count needs no room. -/
def open? (s : Selection) (f : Frame) (frames : List Frame) (e : Expect) : Option Reading :=
  if s.isNothing || frames.length < depthLimit then some (.inside (f :: frames) e) else none

/-- A token where a value is expected. -/
def takeValue? (s : Selection) (frames : List Frame) : Token → Option Reading
  | .null => placeSelected? s (some .null) frames
  | .bool b => placeSelected? s (some (.bool b)) frames
  | .number n => placeSelected? s (n.map .number) frames
  | .string t => placeSelected? s (t.map .string) frames
  | .openArray => open? s (.array s []) frames .valueOrClose
  | .openObject => open? s (.object s [] none) frames .keyOrClose
  | _ => none

/-- A key: it has to have a value where its object counts. -/
def takeKey? (key : Option String) : List Frame → Option Reading
  | .object s fields none :: rest =>
    let key := if s.isNothing then some (key.getD "") else key
    key.map fun k => .inside (.object s fields (some k) :: rest) .colon
  | _ => none

/-- Closes the innermost container, if the bracket fits. -/
def close? : List Frame → Token → Option Reading
  | .array s items :: rest, .closeArray => placeSelected? s (some (.array items.reverse)) rest
  | .object s fields none :: rest, .closeObject =>
    placeSelected? s (some (.object fields.reverse)) rest
  | _, _ => none

/-- One more token. -/
def take? (whole : Selection) (r : Reading) (t : Token) : Option Reading :=
  match r with
  | .complete _ => none
  | .inside frames e =>
    match e, t with
    | .value, t => takeValue? (nextSelection whole frames) frames t
    | .valueOrClose, .closeArray => close? frames t
    | .valueOrClose, t => takeValue? (nextSelection whole frames) frames t
    | .keyOrClose, .closeObject => close? frames t
    | .key, .string key | .keyOrClose, .string key => takeKey? key frames
    | .colon, .colon => some (.inside frames .value)
    | .commaOrClose, .comma =>
      match frames with
      | .array _ _ :: _ => some (.inside frames .value)
      | .object _ _ _ :: _ => some (.inside frames .key)
      | [] => none
    | .commaOrClose, t => close? frames t
    | _, _ => none

/-- Puts tokens together. -/
def takeAll? (whole : Selection) (r : Reading) : List Token → Option Reading
  | [] => some r
  | t :: ts =>
    match take? whole r t with
    | none => none
    | some r => takeAll? whole r ts

/-- The selected parts of the document that the tokens make up. -/
def ofTokens? (whole : Selection) (ts : List Token) : Option Json :=
  match takeAll? whole (.inside [] .value) ts with
  | some (.complete v) => some v
  | _ => none

/-- Reads the selected parts of a document, with all their fields. -/
def parseSelected? (whole : Selection) (text : String) : Option Json :=
  (tokens? text.toList).bind (ofTokens? whole)

/-! ## Repeated keys -/

mutual

/-- The value with one field for each key of an object: at the first place, with the last
    value. -/
def keepLast : Json → Json
  | array items => array (keepLastItems items)
  | object fields => object (keepLastFields [] fields)
  | v => v

/-- `keepLast` for every item. -/
def keepLastItems : List Json → List Json
  | [] => []
  | v :: rest => keepLast v :: keepLastItems rest

/-- Adds further fields to those that are kept. -/
def keepLastFields (kept : Fields) : List (String × Json) → Fields
  | [] => kept
  | (k, v) :: rest => keepLastFields (Fields.set k (keepLast v) kept) rest

end

/-- Reads a document. -/
def parse? (text : String) : Option Json := (parseSelected? .everything text).map keepLast

end Json

end SchemaTypes

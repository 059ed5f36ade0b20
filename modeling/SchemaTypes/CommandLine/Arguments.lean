/-
  Arguments of the command line.

  Options are spelled `--name`, those with a value `--name value` or `--name=value`; each
  but the repeatable ones may stand once.  What follows `--` is taken as it is.  A value of
  its own may not begin with a dash, unless it is one.
-/
import SchemaTypes.Options

namespace SchemaTypes

namespace CommandLine

/-- An option without a value. -/
inductive Flag where
  | noMaps | noEnums | noCombineClasses | noUuids | noDateTimes | noIntegerStrings
  | noBooleanStrings | alphabetize | allOptional | pretty | verbose
  deriving DecidableEq

/-- An option with a value. -/
inductive Setting where
  | topLevel | additionalSchema | httpHeader | config | output
  deriving DecidableEq

/-- What the command line asks for. -/
structure Arguments where
  sources : List String
  flags : List Flag
  settings : List (Setting × String)

/-- What the arguments come to. -/
inductive Request where
  | run (a : Arguments)
  | help
  | version

namespace Flag

/-- All flags with their spellings. -/
def spellings : List (String × Flag) :=
  [("no-maps", noMaps), ("no-enums", noEnums), ("no-combine-classes", noCombineClasses),
    ("no-uuids", noUuids), ("no-date-times", noDateTimes),
    ("no-integer-strings", noIntegerStrings), ("no-boolean-strings", noBooleanStrings),
    ("alphabetize", alphabetize), ("all-optional", allOptional), ("pretty", pretty),
    ("verbose", verbose)]

/-- What a flag does to the options of a run. -/
def set (o : Options) : Flag → Options
  | noMaps => { o with inferMaps := false }
  | noEnums => { o with inferEnums := false }
  | noCombineClasses => { o with combineClasses := false }
  | noUuids => { o with inferUuids := false }
  | noDateTimes => { o with inferDateTimes := false }
  | noIntegerStrings => { o with inferIntegerStrings := false }
  | noBooleanStrings => { o with inferBooleanStrings := false }
  | alphabetize => { o with alphabetizeProperties := true }
  | allOptional => { o with allPropertiesOptional := true }
  | pretty | verbose => o

end Flag

/-- Whether a character is blank. -/
def isBlank (c : Char) : Bool :=
  decide (9 ≤ c.val ∧ c.val ≤ 13 ∨ 0x2000 ≤ c.val ∧ c.val ≤ 0x200A) ||
    [0x20, 0x85, 0xA0, 0x1680, 0x2028, 0x2029, 0x202F, 0x205F, 0x3000].contains c.val

/-- Whether a text is a header: a name that is not blank, a colon and anything. -/
def isHeader (s : String) : Bool :=
  match s.toList.span (· ≠ ':') with
  | (name, _ :: _) => !name.all isBlank
  | (_, []) => false

namespace Setting

/-- All settings with their spellings. -/
def spellings : List (String × Setting) :=
  [("top-level", topLevel), ("additional-schema", additionalSchema),
    ("http-header", httpHeader), ("config", config), ("output", output)]

/-- Whether a setting may be given more than once. -/
def isRepeatable : Setting → Bool
  | additionalSchema | httpHeader => true
  | _ => false

/-- Whether a setting accepts a value: files have a name, and headers their form. -/
def accepts : Setting → String → Bool
  | config, value | output, value => !value.isEmpty
  | httpHeader, value => isHeader value
  | topLevel, _ | additionalSchema, _ => true

end Setting

namespace Arguments

/-- No arguments. -/
def empty : Arguments := ⟨[], [], []⟩

/-- The values of a setting, in order. -/
def valuesOf (a : Arguments) (s : Setting) : List String :=
  (a.settings.filter (·.1 = s)).map (·.2)

/-- The value of a setting. -/
def valueOf? (a : Arguments) (s : Setting) : Option String := (a.valuesOf s).head?

/-- Adds a flag, unless it is there. -/
def addFlag? (a : Arguments) (f : Flag) : Option Arguments :=
  if f ∈ a.flags then none else some { a with flags := a.flags ++ [f] }

/-- Adds a value of a setting, if it may have one more. -/
def addSetting? (a : Arguments) (s : Setting) (value : String) : Option Arguments :=
  if (!s.isRepeatable && (a.valueOf? s).isSome) || !s.accepts value then none
  else some { a with settings := a.settings ++ [(s, value)] }

/-- The options of a run: those given, changed by the flags. -/
def options (a : Arguments) (o : Options) : Options := a.flags.foldl Flag.set o

end Arguments

/-! ## Reading -/

/-- Whether an argument cannot be a value: it begins with a dash and has more. -/
def isOption (arg : String) : Bool :=
  match arg.toList with
  | '-' :: _ :: _ => true
  | _ => false

/-- What one more option has come to. -/
inductive Progress where
  | next (a : Arguments)
  /-- The option needs the next argument as its value. -/
  | valueOf (s : Setting)
  | done (r : Request)

/-- A long option, without its dashes. -/
def readLong? (a : Arguments) (option : List Char) : Option Progress :=
  let (name, value) := match option.span (· ≠ '=') with
    | (name, _ :: value) => (String.ofList name, some (String.ofList value))
    | (name, []) => (String.ofList name, none)
  match Flag.spellings.lookup name, Setting.spellings.lookup name, value with
  | some f, _, none => (a.addFlag? f).map .next
  | none, some s, some value => (a.addSetting? s value).map .next
  | none, some s, none => some (.valueOf s)
  | none, none, none =>
    if name = "help" then some (.done .help)
    else if name = "version" then some (.done .version)
    else none
  | _, _, _ => none

/-- Short options that share a dash. -/
def readShort? (a : Arguments) : List Char → Option Progress
  | [] => some (.next a)
  | 'v' :: rest =>
    match a.addFlag? .verbose with
    | some a => readShort? a rest
    | none => none
  | 'h' :: _ => some (.done .help)
  | 'V' :: _ => some (.done .version)
  | _ => none

/-- A run, if there is something to run on. -/
def finish? (a : Arguments) : Option Request := if a.sources.isEmpty then none else some (.run a)

/-- One more argument. -/
def readArgument? (a : Arguments) (arg : String) : Option Progress :=
  match arg.toList with
  | '-' :: '-' :: option => readLong? a option
  | '-' :: c :: cs => readShort? a (c :: cs)
  | _ => some (.next { a with sources := a.sources ++ [arg] })

/-- Reads the arguments, of which those before are `a`; `none` if they are wrong. -/
def readFrom? (a : Arguments) : List String → Option Request
  | [] => finish? a
  | "--" :: rest => finish? { a with sources := a.sources ++ rest }
  | arg :: rest =>
    match readArgument? a arg with
    | none => none
    | some (.done r) => some r
    | some (.next a) => readFrom? a rest
    | some (.valueOf s) =>
      match rest with
      | [] => none
      | value :: rest =>
        if isOption value then none else (a.addSetting? s value).bind fun a => readFrom? a rest

/-- Reads the arguments; `none` if they are wrong. -/
def read? (args : List String) : Option Request := readFrom? .empty args

end CommandLine

end SchemaTypes

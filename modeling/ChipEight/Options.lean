import ChipEight.Text.DecimalDigit
import ChipEight.Text.Numeral
import ChipEight.Text.Quoted

/-!
# Command lines

A command line is options, each with or without a value, and at most one plain word. An option may
be shortened as long as only one option begins that way, and its value follows in the next word or
after an equals sign. Two dashes alone end the options; after an equals sign they leave the value
out, so that the option is given with nothing.

Reading goes in two passes. The first decides for every word whether it is an option, which finds
options that are not unique before anything else can be wrong. The second takes the words in order,
reads the values and collects the words that nothing can be done with; these are an error only if
no other was found.

The reader is general: a program says by a list of `OptionRule` which options it has and which of
its settings each one makes.
-/

namespace ChipEight

open Text

/-- Why a value does not suit its option. -/
inductive ValueFault
  | notNumber (kind : String) (text : String)
  | notChoice (text : String) (choices : List String)
  deriving DecidableEq, Repr

/-- The wording of the fault. -/
def ValueFault.message : ValueFault → String
  | .notNumber kind text => s!"invalid {kind} value: {quoted text}"
  | .notChoice text choices =>
    let list := ", ".intercalate (choices.map quoted)
    s!"invalid choice: {quoted text} (choose from {list})"

/-- What an option was given: a value, or nothing where the value was left out. -/
inductive Given (α : Type)
  | value (value : α)
  | nothing
  deriving DecidableEq, Repr

namespace Given

variable {α β : Type}

/-- The value, if there is one. -/
def toOption : Given α → Option α
  | value a => some a
  | nothing => none

/-- Changes the value, if there is one. -/
def map (f : α → β) : Given α → Given β
  | value a => value (f a)
  | nothing => nothing

end Given

/-- What an option does: it asks for help, makes a setting, or makes one from its value. A value
that was left out suits every option, so there is a setting for it that is not looked at. -/
inductive OptionUse (κ : Type)
  | help
  | flag (setting : κ)
  | value (blank : κ) (read : String → Except ValueFault κ)

/-- The names of an option and what it does. -/
structure OptionRule (κ : Type) where
  names : List String
  use : OptionUse κ

/-- Why a command line is refused; a request for help is one of the reasons. -/
inductive UsageFault
  | ambiguous (word : String) (matching : List String)
  | missingValue (option : String)
  | unwantedValue (option : String) (text : String)
  | unsuitable (option : String) (fault : ValueFault)
  | unrecognized (words : List String)
  | helpWanted
  | other (text : String)
  deriving DecidableEq, Repr

/-- The wording of a refusal. -/
def UsageFault.message : UsageFault → String
  | .ambiguous word matching =>
    s!"ambiguous option: {word} could match " ++ ", ".intercalate matching
  | .missingValue option => s!"argument {option}: expected one argument"
  | .unwantedValue option text => s!"argument {option}: ignored explicit argument {quoted text}"
  | .unsuitable option fault => s!"argument {option}: {fault.message}"
  | .unrecognized words => "unrecognized arguments: " ++ " ".intercalate words
  | .helpWanted => "help wanted"
  | .other text => text

/-- What a word of a command line is. An option has the name that it was found by, and the value
that is in the same word: after an equals sign, or behind an option of one letter. -/
inductive Word (κ : Type)
  | plain (text : String)
  | option (rule : OptionRule κ) (name : String) (attached : Option String)
  | unknown (text : String)
  | separator

variable {κ : Type}

namespace OptionRule

/-- The option as messages name it. -/
def label (r : OptionRule κ) : String := "/".intercalate r.names

/-- A whole number as the value. -/
def integer (setting : Given Int → κ) : OptionUse κ :=
  .value (setting .nothing) fun text => match decimalNumeral? text with
    | some n => .ok (setting (.value n))
    | none => .error (.notNumber "int" text)

/-- A real number as the value. -/
def real (setting : Given Float → κ) : OptionUse κ :=
  .value (setting .nothing) fun text => match realNumeral? text with
    | some x => .ok (setting (.value x))
    | none => .error (.notNumber "float" text)

/-- Any text as the value. -/
def text (setting : Given String → κ) : OptionUse κ :=
  .value (setting .nothing) fun text => .ok (setting (.value text))

/-- One of some things as the value, by its name. -/
def choice {α : Type} (choices : List (String × α)) (setting : Given α → κ) : OptionUse κ :=
  .value (setting .nothing) fun text => match choices.lookup text with
    | some a => .ok (setting (.value a))
    | none => .error (.notChoice text (choices.map Prod.fst))

end OptionRule

namespace Options

/-- Every name of every option, in order. -/
def allNames (rules : List (OptionRule κ)) : List (String × OptionRule κ) :=
  rules.flatMap fun rule => rule.names.map fun name => (name, rule)

/-- The characters before the first equals sign and the value after it, if there is one. -/
def splitEquals (cs : List Char) : List Char × Option String :=
  match cs.dropWhile (· != '=') with
  | [] => (cs, none)
  | _ :: value => (cs.takeWhile (· != '='), some (String.ofList value))

/-- The text is a minus and digits with at most one point among them, and digits after the
point. One line feed may follow. -/
def looksNegative (cs : List Char) : Bool :=
  match cs with
  | '-' :: rest =>
    let rest := if rest.getLast? == some '\n' then rest.dropLast else rest
    let whole := rest.takeWhile isDecimalDigit
    match rest.dropWhile isDecimalDigit with
    | [] => !whole.isEmpty
    | '.' :: part => !part.isEmpty && part.all isDecimalDigit
    | _ => false
  | _ => false

/-- The options that a word may be a short form of, each with the value in the word. -/
def shortForms (rules : List (OptionRule κ)) (cs : List Char) :
    List (String × OptionRule κ × Option String) :=
  match cs with
  | '-' :: '-' :: _ =>
    let (front, value) := splitEquals cs
    ((allNames rules).filter fun (name, _) => front.isPrefixOf name.toList).map fun (name, rule) =>
      (name, rule, value)
  | '-' :: c :: rest =>
    (allNames rules).filterMap fun (name, rule) =>
      if name.toList = ['-', c] then some (name, rule, some (String.ofList rest))
      else if cs.isPrefixOf name.toList then some (name, rule, none)
      else none
  | _ => []

/-- The option that a word with an equals sign names in full before the sign. -/
def fullForm? (rules : List (OptionRule κ)) (cs : List Char) :
    Option (String × OptionRule κ × Option String) :=
  match splitEquals cs with
  | (_, none) => none
  | (front, some value) =>
    ((allNames rules).find? fun (name, _) => name.toList = front).map fun (name, rule) =>
      (name, rule, some value)

/-- What a word is that names no option in full. -/
def classifyShort (rules : List (OptionRule κ)) (word : String) : Except UsageFault (Word κ) :=
  match shortForms rules word.toList with
  | [(name, rule, value)] => .ok (.option rule name value)
  | [] =>
    if looksNegative word.toList || word.toList.contains ' ' then .ok (.plain word)
    else .ok (.unknown word)
  | forms => .error (.ambiguous word (forms.map Prod.fst))

/-- What a word is, as long as no separator has come. -/
def classify (rules : List (OptionRule κ)) (word : String) : Except UsageFault (Word κ) :=
  if word.toList.head? ≠ some '-' then .ok (.plain word)
  else match (allNames rules).find? fun (name, _) => name = word with
    | some (name, rule) => .ok (.option rule name none)
    | none =>
      if word = "-" then .ok (.plain word)
      else match fullForm? rules word.toList with
        | some (name, rule, value) => .ok (.option rule name value)
        | none => classifyShort rules word

/-- What each word is. -/
def classifyAll (rules : List (OptionRule κ)) : List String → Except UsageFault (List (Word κ))
  | [] => .ok []
  | word :: rest =>
    if word = "--" then .ok (.separator :: rest.map .plain)
    else do
      let first ← classify rules word
      let others ← classifyAll rules rest
      .ok (first :: others)

/-- What has been made of a command line: the settings, the plain word, and the words that nothing
can be done with, the last ones first. -/
structure Reading (κ : Type) where
  settings : List κ := []
  word : Option String := none
  extras : List String := []

/-- Letters behind an option of one letter are options of their own, so they are looked up in turn,
and the text from the first unknown one on is what is refused. Without one the request for help
stands. -/
def unwantedLetters (rules : List (OptionRule κ)) (rule : OptionRule κ) : List Char → UsageFault
  | [] => .helpWanted
  | c :: rest =>
    match (allNames rules).find? fun (name, _) => name.toList = ['-', c] with
    | some (_, next) =>
      match next.use with
      | .value .. => .helpWanted
      | _ => unwantedLetters rules next rest
    | none => .unwantedValue rule.label (String.ofList (c :: rest))

/-- What a request for help comes to that has a value behind it. -/
def helpWith (rules : List (OptionRule κ)) (rule : OptionRule κ) (name text : String) :
    UsageFault :=
  if name.length = 2 ∧ text ≠ "" then unwantedLetters rules rule text.toList
  else .unwantedValue rule.label text

/-- The setting that a value in the word of its option makes. -/
def attachedSetting (blank : κ) (read : String → Except ValueFault κ) (text : String) :
    Except ValueFault κ :=
  if text = "--" then .ok blank else read text

/-- Takes the words in order. `adjacent` says that the word just before was taken as the plain
word, so that a separator that comes now belongs to it. -/
def take (rules : List (OptionRule κ)) (adjacent : Bool) (r : Reading κ) :
    List (Word κ) → Except UsageFault (Reading κ)
  | [] => .ok r
  | .plain text :: rest =>
    match r.word with
    | none => take rules true { r with word := some text } rest
    | some _ => take rules false { r with extras := text :: r.extras } rest
  | .separator :: rest =>
    if adjacent || r.word.isNone then take rules false r rest
    else take rules false { r with extras := "--" :: r.extras } rest
  | .unknown text :: rest => take rules false { r with extras := text :: r.extras } rest
  | .option rule name attached :: rest =>
    match rule.use, attached with
    | .help, none => .error .helpWanted
    | .help, some text => .error (helpWith rules rule name text)
    | .flag setting, none => take rules false { r with settings := setting :: r.settings } rest
    | .flag _, some text => .error (.unwantedValue rule.label text)
    | .value blank read, some text =>
      match attachedSetting blank read text with
      | .ok setting => take rules false { r with settings := setting :: r.settings } rest
      | .error fault => .error (.unsuitable rule.label fault)
    | .value _ read, none =>
      match rest with
      | .plain text :: rest =>
        match read text with
        | .ok setting => take rules false { r with settings := setting :: r.settings } rest
        | .error fault => .error (.unsuitable rule.label fault)
      | _ => .error (.missingValue rule.label)

/-- Reads a command line: the settings in order and the plain word. -/
def read (rules : List (OptionRule κ)) (words : List String) :
    Except UsageFault (List κ × Option String) := do
  let words ← classifyAll rules words
  let r ← take rules false {} words
  if r.extras.isEmpty then .ok (r.settings.reverse, r.word)
  else .error (.unrecognized r.extras.reverse)

end Options

end ChipEight

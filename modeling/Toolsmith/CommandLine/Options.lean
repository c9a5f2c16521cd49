import Toolsmith.Text.Digit

/-!
Options of the command line. A long option may be shortened as far as it stays the only one that
starts so, and may have its value after an equals sign. Switches of one letter may share a dash. Of
an option that is repeated the last value counts. An argument that is no option and not the value of
one is a mistake, which is reported only when nothing asks for help. The two dashes that end the
options are never the value of one.
-/

set_option autoImplicit false

namespace Toolsmith.CommandLine

/-- Options that have a value. -/
inductive Setting where
  | schema
  | output
  | call
  | arguments
deriving DecidableEq, Repr

inductive Switch where
  | help
  | verbose
deriving DecidableEq, Repr

inductive Flag where
  | setting (setting : Setting)
  | switch (switch : Switch)
deriving DecidableEq, Repr

def flags : List (List Char × Flag) :=
  [("-h".toList, .switch .help), ("--help".toList, .switch .help),
    ("--schema".toList, .setting .schema), ("--output".toList, .setting .output),
    ("--call".toList, .setting .call), ("--args".toList, .setting .arguments),
    ("-v".toList, .switch .verbose), ("--verbose".toList, .switch .verbose)]

/-- What an argument means, apart from the arguments around it. -/
inductive Word where
  | text (value : String)
  | setting (setting : Setting) (value : Option String)
  | switch (switch : Switch)
  /-- Neither an option nor a value. -/
  | stray
  /-- A switch with a value, or with letters behind it that are no switches. -/
  | misused
  /-- The start of several options. -/
  | ambiguous
deriving DecidableEq, Repr

namespace Word

/-- The parts before and after the first equals sign. -/
def splitValue (argument : List Char) : List Char × Option (List Char) :=
  match argument.dropWhile (· ≠ '=') with
  | [] => (argument, none)
  | _ :: value => (argument.takeWhile (· ≠ '='), some value)

def ofFlag (flag : Flag) (value : Option (List Char)) : Word :=
  match flag, value with
  | .setting name, value => .setting name (value.map String.ofList)
  | .switch name, none => .switch name
  | .switch _, some _ => .misused

def switch? (letter : Char) : Option Switch :=
  match flags.lookup ['-', letter] with
  | some (.switch name) => some name
  | _ => none

/-- Switches that share a dash; every letter has to be one. -/
def ofLetters (letters : List Char) : List Word :=
  match letters.mapM switch? with
  | some switches => switches.map .switch
  | none => [.misused]

/-- What follows a dash and a switch. An equals sign right after the switch is passed over if there
are more letters after it. -/
def ofCluster (letter : Char) : List Char → List Word
  | ['='] => [.misused]
  | '=' :: rest => ofLetters (letter :: rest)
  | rest => ofLetters (letter :: rest)

/-- A digit of any script. -/
def isDigit (c : Char) : Bool :=
  (Text.digitValue? c).isSome

def isNegativeInteger : List Char → Bool
  | '-' :: digits => !digits.isEmpty && digits.all isDigit
  | _ => false

def isNegativeFraction : List Char → Bool
  | '-' :: rest =>
    match rest.dropWhile isDigit with
    | '.' :: digits => !digits.isEmpty && digits.all isDigit
    | _ => false
  | _ => false

def withoutLineFeed (text : List Char) : List Char :=
  if text.getLast? = some '\n' then text.dropLast else text

/-- A number below zero, perhaps with a line feed at its end. -/
def isNegativeNumber (argument : List Char) : Bool :=
  let number := withoutLineFeed argument
  isNegativeInteger number || isNegativeFraction number

/-- An argument that starts with a dash and names no option: it is a value if it is a number or
holds a space. -/
def ofUnknown (argument : List Char) : Word :=
  if isNegativeNumber argument || argument.contains ' ' then .text (String.ofList argument)
  else .stray

/-- An argument that starts with two dashes and is not the name of an option. -/
def ofLong (argument : List Char) : Word :=
  let (name, value) := splitValue argument
  match flags.filter fun flag => name.isPrefixOf flag.1 with
  | [] => ofUnknown argument
  | [flag] => ofFlag flag.2 value
  | _ => .ambiguous

def ofDashed (argument : List Char) : List Word :=
  match flags.lookup argument, argument with
  | some flag, _ => [ofFlag flag none]
  | none, ['-'] => [.text "-"]
  | none, '-' :: '-' :: _ => [ofLong argument]
  | none, '-' :: letter :: rest =>
    if (switch? letter).isSome then ofCluster letter rest else [ofUnknown argument]
  | none, _ => [ofUnknown argument]

def ofArgument (argument : String) : List Word :=
  if argument.toList.head? = some '-' then ofDashed argument.toList else [.text argument]

/-- The words of all arguments. Two dashes end the options, and no other arguments are expected. -/
def ofArguments : List String → List Word
  | [] => []
  | argument :: rest =>
    if argument = "--" then [.stray] else ofArgument argument ++ ofArguments rest

end Word

/-- What the arguments say of an option that has a value. -/
inductive OptionValue where
  | absent
  /-- The option stands there, but what it is set to is no value. Only some releases of the option
  parser lose a value so; others keep it as it is. -/
  | dropped
  | given (text : String)
deriving DecidableEq, Repr

namespace OptionValue

/-- Two dashes are no value, even after an equals sign. -/
def ofText (text : String) : OptionValue :=
  if text = "--" then .dropped else .given text

def text? : OptionValue → Option String
  | .given text => some text
  | _ => none

end OptionValue

structure Options where
  schema : OptionValue := .absent
  output : OptionValue := .absent
  call : OptionValue := .absent
  arguments : OptionValue := .absent
  verbose : Bool := false
deriving DecidableEq, Repr

inductive Request where
  | run (options : Options)
  | help
  | mistake
deriving DecidableEq, Repr

namespace Options

def set (options : Options) (text : String) : Setting → Options
  | .schema => { options with schema := .ofText text }
  | .output => { options with output := .ofText text }
  | .call => { options with call := .ofText text }
  | .arguments => { options with arguments := .ofText text }

end Options

namespace Request

/-- Reads the words one after the other; `strayed` tells whether some had no meaning. -/
def ofWords (options : Options) (strayed : Bool) : List Word → Request
  | [] => if strayed then .mistake else .run options
  | .setting setting (some value) :: rest => ofWords (options.set value setting) strayed rest
  | .setting setting none :: .text value :: rest =>
    ofWords (options.set value setting) strayed rest
  | .setting _ none :: _ => .mistake
  | .switch .help :: _ => .help
  | .switch .verbose :: rest => ofWords { options with verbose := true } strayed rest
  | .misused :: _ => .mistake
  | .ambiguous :: _ => .mistake
  | .text _ :: rest => ofWords options true rest
  | .stray :: rest => ofWords options true rest

/-- An option that is ambiguous is a mistake wherever it stands. -/
def ofArguments (arguments : List String) : Request :=
  let words := Word.ofArguments arguments
  if words.contains .ambiguous then .mistake else ofWords {} false words

end Request

end Toolsmith.CommandLine

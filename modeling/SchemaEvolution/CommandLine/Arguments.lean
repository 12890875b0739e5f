/-!
# Arguments

The grammar of a command line: options `--name value`, `--name=value`, `-n value` and `-nvalue`,
flags `--name` and `-n`, several letters in one argument, and operands. A single dash is an
operand; after a double dash every argument is one. A value that follows its option must not
look like an option.
-/

namespace SchemaEvolution.CommandLine

/-- An option that a command takes. -/
structure OptionForm where
  name : String
  letter : Option Char := none
  /-- Whether the option has a value; one without is a flag. -/
  hasValue : Bool := true
deriving DecidableEq, Repr

/-- What the next argument may be. -/
inductive Expected where
  | anything
  | valueOf (option : String)
  | operand
deriving DecidableEq, Repr

/-- The arguments so far: options with their values (the empty text for a flag) and operands. -/
structure Arguments where
  options : List (String × String) := []
  operands : List String := []
  expected : Expected := .anything
deriving DecidableEq, Repr

namespace Arguments

def looksLikeOption (arg : String) : Bool :=
  match arg.toList with
  | '-' :: _ :: _ => true
  | _ => false

/-- One more option. -/
def give (a : Arguments) (option value : String) : Arguments :=
  { a with options := a.options ++ [(option, value)], expected := .anything }

/-- A name and what follows the first equals sign, if there is one. -/
def splitValue (cs : List Char) : List Char × Option (List Char) :=
  match cs.span (· != '=') with
  | (name, _ :: value) => (name, some value)
  | (name, []) => (name, none)

/-- Takes an option by its name, perhaps with a value. -/
def takeLong (forms : List OptionForm) (a : Arguments) (cs : List Char) : Option Arguments :=
  let (name, value) := splitValue cs
  (forms.find? fun f => f.name.toList == name).bind fun f =>
    match f.hasValue, value with
    | true, some v => some (a.give f.name (String.ofList v))
    | true, none => some { a with expected := .valueOf f.name }
    | false, none => some (a.give f.name "")
    | false, some _ => none

/-- A value that is joined to a letter, perhaps by an equals sign. -/
def joinedValue : List Char → List Char
  | '=' :: cs => cs
  | cs => cs

/-- Takes flags by their letters; an option with a value ends the argument. -/
def takeLetters (forms : List OptionForm) (a : Arguments) : List Char → Option Arguments
  | [] => some a
  | c :: cs =>
    (forms.find? fun f => f.letter == some c).bind fun f =>
      if f.hasValue then
        match cs with
        | [] => some { a with expected := .valueOf f.name }
        | _ => some (a.give f.name (String.ofList (joinedValue cs)))
      else takeLetters forms (a.give f.name "") cs

/-- Takes one argument. -/
def take (forms : List OptionForm) (a : Arguments) (arg : String) : Option Arguments :=
  match a.expected, arg.toList with
  | .operand, _ => some { a with operands := a.operands ++ [arg] }
  | .valueOf option, _ => if looksLikeOption arg then none else some (a.give option arg)
  | .anything, ['-', '-'] => some { a with expected := .operand }
  | .anything, '-' :: '-' :: cs => takeLong forms a cs
  | .anything, '-' :: c :: cs => takeLetters forms a (c :: cs)
  | .anything, _ => some { a with operands := a.operands ++ [arg] }

/-- The arguments, unless an option still lacks its value. -/
def complete? (a : Arguments) : Option Arguments :=
  match a.expected with
  | .valueOf _ => none
  | _ => some a

/-- All arguments of a command. -/
def ofList? (forms : List OptionForm) (args : List String) : Option Arguments :=
  (args.foldlM (take forms) {}).bind complete?

/-- The options in front of the first operand, that operand, and the arguments after it. -/
def split? (forms : List OptionForm) (a : Arguments) :
    List String → Option (Arguments × String × List String)
  | [] => none
  | arg :: args =>
    if a.expected = .anything ∧ !looksLikeOption arg then some (a, arg, args)
    else (take forms a arg).bind fun a => split? forms a args

/-! ## Values of options -/

def values (a : Arguments) (option : String) : List String :=
  (a.options.filter (·.1 == option)).map (·.2)

/-- The value of an option that may be given once. -/
def value? (a : Arguments) (option : String) : Option (Option String) :=
  match a.values option with
  | [] => some none
  | [v] => some (some v)
  | _ => none

/-- The value of an option that must be given once. -/
def required? (a : Arguments) (option : String) : Option String :=
  (a.value? option).bind id

/-- Whether a flag is given, which it may be once. -/
def flag? (a : Arguments) (option : String) : Option Bool :=
  (a.value? option).map Option.isSome

end Arguments

end SchemaEvolution.CommandLine

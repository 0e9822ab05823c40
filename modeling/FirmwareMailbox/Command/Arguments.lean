/-
  FirmwareMailbox.Command.Arguments — lists of arguments, told apart into flags, options with a
  value, and values in place.

  A long name follows `--`, its value after `=` or as the next argument; short flags follow one `-`
  and may stand together. No flag or option occurs twice. What starts with `-` is never the value
  of the argument before it, `-` alone excepted. After `--` everything is a value in place.

  `-h` and `--help` ask for help wherever they stand, unless an argument before them was wrong.
-/

namespace FirmwareMailbox

/-- Why an argument list is not carried out. -/
inductive Usage where
  /-- Help was asked for. -/
  | help
  | wrong
  deriving DecidableEq, Repr

/-- The exit code after a list that is not carried out. -/
def Usage.exitCode : Usage → Nat
  | .help => 0
  | .wrong => 2

/-- What a command takes. -/
structure Grammar where
  flags : List String := []
  /-- Options with a value, and which values are good. -/
  options : List (String × (String → Bool)) := []
  /-- The most values in place that stand together. -/
  places : Nat := 0
  /-- Whether values in place may go on after a flag or an option. -/
  scattered : Bool := false

/-- What was given. -/
structure Arguments where
  flags : List String := []
  options : List (String × String) := []
  values : List String := []
  /-- How many of the values stand together at the end. -/
  together : Nat := 0
  deriving DecidableEq, Repr

namespace Arguments

def has (a : Arguments) (flag : String) : Bool := a.flags.contains flag

def option? (a : Arguments) (name : String) : Option String := a.options.lookup name

/-- A flag was met. -/
def addFlag (a : Arguments) (name : String) : Except Usage Arguments :=
  if a.has name then .error .wrong
  else .ok { a with flags := name :: a.flags, together := 0 }

/-- An option was met with its value. -/
def addOption (g : Grammar) (a : Arguments) (name value : String) : Except Usage Arguments :=
  match g.options.lookup name with
  | none => .error .wrong
  | some good =>
    if (a.option? name).isSome || !good value then .error .wrong
    else .ok { a with options := (name, value) :: a.options, together := 0 }

/-- A value in place was met. -/
def addValue (g : Grammar) (a : Arguments) (value : String) : Except Usage Arguments :=
  let room := if g.scattered then a.together < g.places else a.values.length < g.places
  if room then .ok { a with values := a.values ++ [value], together := a.together + 1 }
  else .error .wrong

/-- Short flags that stand together. -/
def addShort (a : Arguments) : List Char → Except Usage Arguments
  | [] => .ok a
  | 'h' :: _ => .error .help
  | 'v' :: cs => do
    let a ← a.addFlag "verbose"
    a.addShort cs
  | _ => .error .wrong

/-- How an argument looks. -/
inductive Shape where
  | separator
  | long (name : String) (value? : Option String)
  | short (letters : List Char)
  | value
  deriving DecidableEq, Repr

/-- What stands before the first `=`, and what after it. -/
def cutAtEquals (cs : List Char) : String × Option String :=
  match cs.dropWhile (· ≠ '=') with
  | _ :: value => (String.ofList (cs.takeWhile (· ≠ '=')), some (String.ofList value))
  | [] => (String.ofList cs, none)

def shape (arg : String) : Shape :=
  match arg.toList with
  | ['-', '-'] => .separator
  | '-' :: '-' :: cs => let (name, value?) := cutAtEquals cs; .long name value?
  | ['-'] => .value
  | '-' :: cs => .short cs
  | _ => .value

/-- A long name that takes no value from the next argument: its effect; none if it waits for the
value of an option. -/
def addLong (g : Grammar) (a : Arguments) (name : String) (value? : Option String) :
    Except Usage (Option Arguments) :=
  match value? with
  | some value => (addOption g a name value).map some
  | none =>
    if name = "help" then .error .help
    else if g.flags.contains name then (a.addFlag name).map some
    else if (g.options.lookup name).isSome then .ok none
    else .error .wrong

/-- Everything after `--`. -/
def addValues (g : Grammar) (a : Arguments) : List String → Except Usage Arguments
  | [] => .ok a
  | v :: vs => do
    let a ← addValue g a v
    addValues g a vs

/-- Takes a list apart. `waiting?` is the option that the next argument is the value of. -/
def takeApart (g : Grammar) (a : Arguments) : (waiting? : Option String) → List String →
    Except Usage Arguments
  | none, [] => .ok a
  | some _, [] => .error .wrong
  | some name, arg :: rest =>
    match shape arg with
    | .value => do
      let a ← addOption g a name arg
      takeApart g a none rest
    | _ => .error .wrong
  | none, arg :: rest =>
    match shape arg with
    | .separator => addValues g a rest
    | .short letters => do
      let a ← a.addShort letters
      takeApart g a none rest
    | .long name value? => do
      match ← addLong g a name value? with
      | some a => takeApart g a none rest
      | none => takeApart g a (some name) rest
    | .value => do
      let a ← addValue g a arg
      takeApart g a none rest

/-- The arguments that a list gives to a command with this grammar. -/
def ofList (g : Grammar) (args : List String) : Except Usage Arguments := takeApart g {} none args

end Arguments

end FirmwareMailbox

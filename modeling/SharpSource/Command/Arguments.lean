/-!
# Arguments

The command line: switches that hold for every command, a command, and what the
command takes. A switch is given once, by its name behind two dashes or by its
letter behind one; letters may share a dash. A setting takes a value, behind an
equals sign, right behind its letter, or as the next argument, which then may
not look like a switch; the value may not be empty. Two dashes alone end the
switches, and as no command takes words, they can only stand last.
-/

namespace SharpSource.Command

/-- What is on or off. -/
inductive Switch where
  | verbose
  | dryRun
  | parallel
  | skipExisting
  | version
  | help
  deriving DecidableEq, Repr

/-- What takes a value. -/
inductive Setting where
  | config
  | output
  deriving DecidableEq, Repr

/-- What can be done. -/
inductive Verb where
  | bake
  | check
  deriving DecidableEq, Repr

/-- A switch or a setting. -/
abbrev Choice := Switch ⊕ Setting

/-- What may be given for a command, or in front of one: with its name, and its
letter where it has one. -/
def choices : Option Verb → List (String × Option Char × Choice)
  | none => [
    ("verbose", some 'v', .inl .verbose),
    ("version", some 'V', .inl .version),
    ("help", some 'h', .inl .help)]
  | some .check => [
    ("config", some 'c', .inr .config),
    ("verbose", some 'v', .inl .verbose),
    ("help", some 'h', .inl .help)]
  | some .bake => [
    ("config", some 'c', .inr .config),
    ("output", some 'o', .inr .output),
    ("dry-run", none, .inl .dryRun),
    ("parallel", none, .inl .parallel),
    ("skip-existing", none, .inl .skipExisting),
    ("verbose", some 'v', .inl .verbose),
    ("help", some 'h', .inl .help)]

/-- The choice with a name. -/
def named? (verb : Option Verb) (name : List Char) : Option Choice :=
  ((choices verb).find? (·.1.toList == name)).map (·.2.2)

/-- The choice with a letter. -/
def lettered? (verb : Option Verb) (letter : Char) : Option Choice :=
  ((choices verb).find? (·.2.1 == some letter)).map (·.2.2)

/-- The commands by their words. -/
def verb? (word : String) : Option Verb :=
  if word = "bake" then some .bake else if word = "check" then some .check else none

/-- What was given for a command. -/
structure Arguments where
  switches : List Switch := []
  config : Option String := none
  output : Option String := none
  deriving DecidableEq, Repr

/-- What a command line asks for. -/
inductive Request where
  /-- The command line makes no sense. -/
  | usage
  | version
  | help
  | run (verb : Verb) (args : Arguments)
  deriving DecidableEq, Repr

namespace Arguments

/-- Turns a switch on that was off. -/
def turnOn? (a : Arguments) (s : Switch) : Option Arguments :=
  if s ∈ a.switches then none else some { a with switches := s :: a.switches }

/-- Gives a setting its value, which is not empty and the first. -/
def assign? (a : Arguments) (s : Setting) (value : List Char) : Option Arguments :=
  if value.isEmpty then none
  else match s, a.config, a.output with
    | .config, none, _ => some { a with config := some (String.ofList value) }
    | .output, _, none => some { a with output := some (String.ofList value) }
    | _, _, _ => none

end Arguments

/-- Whether an argument looks like a switch. -/
def looksLikeSwitch (arg : List Char) : Bool :=
  arg.head? == some '-' && arg != ['-']

/-- What reading one argument comes to. -/
inductive Reading where
  /-- The argument was read. -/
  | done (a : Arguments)
  /-- The argument ends the switches; only words may follow. -/
  | ended (a : Arguments)
  /-- The next argument is the value of a setting. -/
  | pending (a : Arguments) (s : Setting)
  /-- Nothing else matters. -/
  | stop (r : Request)

/-- Reads a switch. -/
def readSwitch (a : Arguments) (s : Switch) : Reading :=
  match s, a.turnOn? s with
  | .version, _ => .stop .version
  | .help, _ => .stop .help
  | _, some a => .done a
  | _, none => .stop .usage

/-- Reads the value of a setting. -/
def readValue (a : Arguments) (s : Setting) (value : List Char) : Reading :=
  match a.assign? s value with
  | some a => .done a
  | none => .stop .usage

/-- Reads an argument by name, from behind its two dashes. -/
def readNamed (verb : Option Verb) (a : Arguments) (arg : List Char) : Reading :=
  let name := arg.takeWhile (· != '=')
  match named? verb name, arg.dropWhile (· != '=') with
  | some (.inl s), [] => readSwitch a s
  | some (.inr s), _ :: value => readValue a s value
  | some (.inr s), [] => .pending a s
  | _, _ => .stop .usage

/-- Reads letters that share a dash. -/
def readLetters (verb : Option Verb) : Arguments → List Char → Reading
  | a, [] => .done a
  | a, letter :: rest =>
    match lettered? verb letter, rest with
    | some (.inl s), _ =>
      match readSwitch a s with
      | .done a => readLetters verb a rest
      | reading => reading
    | some (.inr s), [] => .pending a s
    | some (.inr s), '=' :: value => readValue a s value
    | some (.inr s), value => readValue a s value
    | none, _ => .stop .usage

/-- Reads one argument that looks like a switch. -/
def readArgument (verb : Option Verb) (a : Arguments) (arg : List Char) : Reading :=
  match arg with
  | '-' :: '-' :: [] => .ended a
  | '-' :: '-' :: arg => readNamed verb a arg
  | _ :: letters => readLetters verb a letters
  | [] => .stop .usage

/-- What is asked for when the arguments are over. -/
def finish : Option Verb → Arguments → Request
  | none, _ => .usage
  | some verb, a => .run verb a

/-- Reads arguments for a command, or in front of one. -/
def read : (verb : Option Verb) → Arguments → List (List Char) → Request
  | verb, a, [] => finish verb a
  | verb, a, arg :: rest =>
    if looksLikeSwitch arg then
      match readArgument verb a arg, rest with
      | .done a, rest => read verb a rest
      | .ended a, [] => finish verb a
      | .ended _, _ :: _ => .usage
      | .stop r, _ => r
      | .pending _ _, [] => .usage
      | .pending a s, value :: rest =>
        if looksLikeSwitch value then .usage
        else match readValue a s value with
          | .done a => read verb a rest
          | _ => .usage
    else
      match verb, verb? (String.ofList arg) with
      | none, some verb => read (some verb) {} rest
      | _, _ => .usage

/-- What a command line asks for. -/
def parse (args : List String) : Request :=
  read none {} (args.map String.toList)

end SharpSource.Command

import TwirpClients.Text.Split

/-!
# Arguments of the command line

The command line has a first level and the levels of its two commands, each with switches
of its own. Arguments are taken from left to right, and the first one that is wrong, or that
asks for help or the version, decides.

A switch is written as a word behind two dashes or as a letter behind one, and letters may
be joined. The value of a switch follows in the same argument, with an equals sign or, behind a
letter, without one, or is the next argument, which then must not look like a switch. A switch is
given at most once, `--file` of `generate` excepted. There are no arguments but these.
-/

namespace TwirpClients.Command

inductive Switch where
  | help
  | version
  | verbose
  | descriptorSet
  | file
  | serverPath
  | output
deriving DecidableEq, Repr

namespace Switch

def word : Switch → String
  | help => "help"
  | version => "version"
  | verbose => "verbose"
  | descriptorSet => "descriptor-set"
  | file => "file"
  | serverPath => "prefix"
  | output => "output"

def letter? : Switch → Option Char
  | help => some 'h'
  | version => some 'V'
  | verbose => some 'v'
  | descriptorSet => some 'd'
  | file => some 'f'
  | serverPath => none
  | output => some 'o'

def takesValue : Switch → Bool
  | help | version | verbose => false
  | descriptorSet | file | serverPath | output => true

/-- Whether the value is the path of a file or directory, which cannot be empty. -/
def takesPath : Switch → Bool
  | descriptorSet | output => true
  | _ => false

end Switch

inductive Level where
  | top
  | generate
  | inspect
deriving DecidableEq, Repr

def Level.switches : Level → List Switch
  | top => [.help, .version, .verbose]
  | generate => [.help, .verbose, .descriptorSet, .file, .serverPath, .output]
  | inspect => [.help, .verbose, .descriptorSet, .file]

def Level.mayRepeat (level : Level) (switch : Switch) : Bool :=
  level = .generate && switch = .file

inductive Stop where
  | usage
  | help
  | version
deriving DecidableEq, Repr

/-- The switches given so far, in order, with their values; a switch without one has an empty
value. -/
abbrev Given := List (Switch × String)

namespace Given

def add (level : Level) (given : Given) (switch : Switch) (value : String) : Except Stop Given :=
  if switch = .help then .error .help
  else if switch = .version then .error .version
  else if given.any (·.1 == switch) && !level.mayRepeat switch then .error .usage
  else if value = "" && switch.takesPath then .error .usage
  else .ok (given ++ [(switch, value)])

def has (given : Given) (switch : Switch) : Bool := given.any (·.1 == switch)

def value? (given : Given) (switch : Switch) : Option String := given.lookup switch

def values (given : Given) (switch : Switch) : List String :=
  (given.filter (·.1 == switch)).map (·.2)

/-- Takes letters joined behind one dash; also tells the switch whose value is still to come. -/
def addLetters (level : Level) (given : Given) : List Char → Except Stop (Given × Option Switch)
  | [] => .ok (given, none)
  | letter :: rest =>
    match level.switches.find? (·.letter? == some letter) with
    | none => .error .usage
    | some switch =>
      if switch.takesValue then
        match rest with
        | [] => .ok (given, some switch)
        | '=' :: value => do return (← given.add level switch (String.ofList value), none)
        | value => do return (← given.add level switch (String.ofList value), none)
      else do
        addLetters level (← given.add level switch "") rest

def addWord (level : Level) (given : Given) (text : List Char) :
    Except Stop (Given × Option Switch) := do
  let (word, value?) := match Text.cut? '=' text with
    | none => (text, none)
    | some (word, value) => (word, some (String.ofList value))
  match level.switches.find? (·.word.toList == word) with
  | none => .error .usage
  | some switch =>
    match switch.takesValue, value? with
    | true, none => return (given, some switch)
    | true, some value => return (← given.add level switch value, none)
    | false, none => return (← given.add level switch "", none)
    | false, some _ => .error .usage

/-- Takes the arguments of a level, `waiting` being the switch whose value comes next. The
first level ends at the first argument that is not a switch, and that one and what follows are
left; two dashes by themselves end the others, and nothing may follow them. -/
def addAll (level : Level) (given : Given) (waiting : Option Switch) :
    List String → Except Stop (Given × List String)
  | [] => if waiting.isNone then .ok (given, []) else .error .usage
  | argument :: rest =>
    match waiting, argument.toList with
    | none, ['-', '-'] => if rest.isEmpty then .ok (given, []) else .error .usage
    | none, '-' :: '-' :: text => do
      let (given, waiting) ← given.addWord level text
      addAll level given waiting rest
    | none, '-' :: letter :: letters => do
      let (given, waiting) ← given.addLetters level (letter :: letters)
      addAll level given waiting rest
    | none, _ => if level = .top then .ok (given, argument :: rest) else .error .usage
    | some _, '-' :: _ :: _ => .error .usage
    | some switch, _ => do addAll level (← given.add level switch argument) none rest

end Given

structure Generation where
  descriptorSet : String
  files : List String := []
  serverPath : Option String := none
  output : String := "./output"
deriving DecidableEq, Repr

structure Inspection where
  descriptorSet : String
  file : String
deriving DecidableEq, Repr

inductive Task where
  | plugin
  | generate (generation : Generation)
  | inspect (inspection : Inspection)
deriving DecidableEq, Repr

structure Invocation where
  verbose : Bool := false
  task : Task
deriving DecidableEq, Repr

def Given.require (given : Given) (switch : Switch) : Except Stop String :=
  match given.value? switch with
  | some value => .ok value
  | none => .error .usage

/-- What a command line asks for. Without a command it is the plugin. -/
def Invocation.ofArguments (arguments : List String) : Except Stop Invocation := do
  let (top, rest) ← Given.addAll .top [] none arguments
  match rest with
  | [] => return { verbose := top.has .verbose, task := .plugin }
  | "generate" :: rest =>
    let (given, _) ← Given.addAll .generate [] none rest
    let generation : Generation :=
      { descriptorSet := ← given.require .descriptorSet
        files := given.values .file
        serverPath := given.value? .serverPath
        output := (given.value? .output).getD "./output" }
    return { verbose := top.has .verbose || given.has .verbose, task := .generate generation }
  | "inspect" :: rest =>
    let (given, _) ← Given.addAll .inspect [] none rest
    let inspection : Inspection :=
      { descriptorSet := ← given.require .descriptorSet
        file := ← given.require .file }
    return { verbose := top.has .verbose || given.has .verbose, task := .inspect inspection }
  | "help" :: topics =>
    if topics ∈ [[], ["generate"], ["inspect"], ["help"]] then .error .help else .error .usage
  | _ => .error .usage

end TwirpClients.Command

/-
The words of a command line.

A line has two levels: the words before the name of a command, and the words after it.
Each level has its own parameters.  A value that stands in a word of its own is read only
when the next parameter comes or the level ends.
-/
import TableSearch.CommandLine.Parameter
import TableSearch.Settings.Environment

namespace TableSearch

/-- The part of a command line that a word belongs to. -/
inductive Level where
  | root
  | command (name : CommandName)
deriving DecidableEq, Repr

namespace Level

/-- The parameters of a level, those of the command first. -/
def parameters : Level → List Parameter
  | .root => Parameter.everywhere
  | .command name => Parameter.ofCommand name ++ Parameter.everywhere

end Level

/-- What a name with dashes stands for. -/
inductive Named where
  | help
  | version
  | parameter (p : Parameter)
deriving DecidableEq, Repr

namespace Named

def ofLong? (level : Level) (name : String) : Option Named :=
  if name = "help" then some .help
  else if name = "version" ∧ level = .root then some .version
  else (level.parameters.find? fun p => p.long == name).map .parameter

def ofShort? (level : Level) (c : Char) : Option Named :=
  if c = 'h' then some .help
  else if c = 'V' ∧ level = .root then some .version
  else (level.parameters.find? fun p => p.short? == some c).map .parameter

end Named

inductive Word where
  /-- Two dashes alone. -/
  | divider
  | long (name : String) (value : Option String)
  /-- One dash, a character and what follows it. -/
  | short (name : Char) (rest : List Char)
  | plain (s : String)

namespace Word

def ofText (s : String) : Word :=
  match s.toList with
  | ['-', '-'] => .divider
  | '-' :: '-' :: rest =>
      match Text.cutFirstChars '=' rest with
      | some (name, value) => .long (String.ofList name) (some (String.ofList value))
      | none => .long (String.ofList rest) none
  | '-' :: c :: rest => .short c rest
  | _ => .plain s

end Word

/-! ## Given parameters -/

/-- The parameters that a level was given, and the one whose value is not read yet. -/
structure Given where
  arguments : List (Parameter × Argument)
  pending : Option (Parameter × Option String)

namespace Given

def none : Given where
  arguments := []
  pending := Option.none

def has (g : Given) (p : Parameter) : Bool :=
  g.arguments.any fun a => a.1 == p

def isWaiting (g : Given) : Bool :=
  match g.pending with
  | some (_, Option.none) => true
  | _ => false

/-- Read a value for a parameter. -/
def give (g : Given) (p : Parameter) (s : String) : Except UsageError Given :=
  if g.has p && !p.repeatable then .error .repeatedArgument
  else do
    let a ← p.read s
    return { g with arguments := g.arguments ++ [(p, a)] }

def settle (g : Given) : Except UsageError Given :=
  match g.pending with
  | Option.none => .ok g
  | some (_, Option.none) => .error .noValue
  | some (p, some s) => { g with pending := Option.none }.give p s

/-- A parameter with its value in the same word, or with a value to come. -/
def begin (g : Given) (p : Parameter) (value : Option String) : Except UsageError Given := do
  let g ← g.settle
  match value with
  | some s => g.give p s
  | Option.none => return { g with pending := some (p, Option.none) }

def enter (g : Given) (value : Option String) : Named → Except UsageError Given
  | .help => do
      let _ ← g.settle
      throw .helpWanted
  | .version => do
      let _ ← g.settle
      throw .versionWanted
  | .parameter p => g.begin p value

/-- A word that is neither a command nor has dashes. -/
def take (level : Level) (g : Given) (s : String) : Except UsageError Given :=
  match g.pending with
  | some (p, Option.none) => .ok { g with pending := some (p, some s) }
  | _ => .error (if level = .root then .unknownCommand else .unknownArgument)

/-- A value behind the name of one character, without an equals sign before it. -/
def shortValue (rest : List Char) : Option String :=
  match rest with
  | [] => Option.none
  | '=' :: value => some (String.ofList value)
  | value => some (String.ofList value)

/-- Any word but the name of a command and two dashes alone. -/
def step (level : Level) (g : Given) : Word → Except UsageError Given
  | .divider => .ok g
  | .long name value =>
      match Named.ofLong? level name with
      | Option.none => .error .unknownArgument
      | some (.parameter p) => g.begin p value
      | some named => if value.isSome then .error .needlessValue else g.enter value named
  | .short c rest =>
      match Named.ofShort? level c with
      | Option.none => .error .unknownArgument
      | some named => g.enter (shortValue rest) named
  | .plain s => g.take level s

end Given

/-! ## Levels -/

/-- The error of the first word after two dashes alone. -/
def afterDivider (level : Level) (word : String) : UsageError :=
  match level with
  | .command _ => .unknownArgument
  | .root =>
      if word = "help" ∨ (CommandName.ofWord? word).isSome then .unknownArgument
      else .unknownCommand

def helpFor : List String → UsageError
  | [] => .helpWanted
  | [word] =>
      if word = "help" ∨ (CommandName.ofWord? word).isSome then .helpWanted
      else .unknownCommand
  | _ => .unknownCommand

/-- Read the words of a level, up to the name of a command. -/
def scan (level : Level) (g : Given) :
    List String → Except UsageError (Given × Option (CommandName × List String))
  | [] => .ok (g, none)
  | word :: rest =>
      if level = .root && !g.isWaiting && word == "help" then .error (helpFor rest)
      else
        match if level = .root && !g.isWaiting then CommandName.ofWord? word else none with
        | some name => .ok (g, some (name, rest))
        | none =>
            match Word.ofText word, rest with
            | .divider, [] => .ok (g, none)
            | .divider, next :: _ => .error (afterDivider level next)
            | w, rest => do
                let g ← g.step level w
                scan level g rest

/-- Read environment variables for the parameters that were not given. -/
def readVariables (env : Environment) (g : Given) :
    List Parameter → Except UsageError (List (Parameter × Argument))
  | [] => .ok []
  | p :: rest =>
      match if g.has p then none else p.envName?.bind env.get? with
      | some s => do
          let a ← p.read s
          let more ← readVariables env g rest
          return (p, a) :: more
      | none => readVariables env g rest

/-- What a level was given, and what the environment adds. -/
structure Settled where
  given : List (Parameter × Argument)
  added : List (Parameter × Argument)

def close (level : Level) (env : Environment) (g : Given) : Except UsageError Settled := do
  let g ← g.settle
  let added ← readVariables env g level.parameters
  return { given := g.arguments, added }

end TableSearch

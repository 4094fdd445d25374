/-
Why a command line is not run.
-/

namespace TableSearch

inductive UsageError where
  /-- A value that its parameter refuses, and why. -/
  | badValue (message : String)
  /-- A parameter without the value that it needs. -/
  | noValue
  /-- A value for a switch. -/
  | needlessValue
  | unknownArgument
  | repeatedArgument
  | missingArgument
  | unknownCommand
  | missingCommand
  /-- Neither a command nor anything else was given. -/
  | nothingGiven
  | helpWanted
  | versionWanted
deriving DecidableEq, Repr

def UsageError.message : UsageError → String
  | .badValue message => "invalid value: " ++ message
  | .noValue => "a value is required"
  | .needlessValue => "unexpected value"
  | .unknownArgument => "unexpected argument"
  | .repeatedArgument => "an argument cannot be used multiple times"
  | .missingArgument => "a required argument was not provided"
  | .unknownCommand => "unrecognized subcommand"
  | .missingCommand => "a subcommand is required"
  | .nothingGiven => "a subcommand is required"
  | .helpWanted => "help"
  | .versionWanted => "version"

end TableSearch

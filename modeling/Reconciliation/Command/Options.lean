import Reconciliation.Files.Error

/-! # Options on a command line

An option has a name that starts with dashes. Its value is the next argument, or stands behind an
equals sign.
-/
namespace Reconciliation

structure OptionSpec where
  name : String
  takesValue : Bool

inductive UsageError
  | unknownOption (name : String)
  | valueMissing (name : String)
  | valueUnexpected (name : String)
  | optionMissing (name : String)
  | unknownLevel (name : String)
  | commandMissing
  | unknownCommand (name : String)
  | unexpectedArgument (text : String)
  | path (e : FileError)
deriving DecidableEq

def UsageError.message : UsageError → String
  | unknownOption name => "No such option: " ++ name
  | valueMissing name => "Option '" ++ name ++ "' requires an argument."
  | valueUnexpected name => "Option '" ++ name ++ "' does not take a value."
  | optionMissing name => "Missing option '" ++ name ++ "'."
  | unknownLevel name => "Invalid value for '--log-level': '" ++ name ++ "' is not a level."
  | commandMissing => "Missing command."
  | unknownCommand name => "No such command '" ++ name ++ "'."
  | unexpectedArgument text => "Got unexpected extra argument (" ++ text ++ ")"
  | path e => e.message

structure Arguments where
  options : List (String × String) := []
  rest : List String := []

namespace Arguments

def help : String := "--help"

def commonOptions : List OptionSpec := [⟨help, false⟩]

def withOption (a : Arguments) (name value : String) : Arguments :=
  { a with options := (name, value) :: a.options }

def withArgument (a : Arguments) (text : String) : Arguments := { a with rest := text :: a.rest }

/-- The value of an option. Of several the last one counts. -/
def value? (a : Arguments) (name : String) : Option String := a.options.reverse.lookup name

def has (a : Arguments) (name : String) : Bool := (a.value? name).isSome

/-- An argument that names an option: a dash, and something after it. -/
def namesOption (arg : String) : Bool := arg.startsWith "-" && arg != "-"

def split (arg : String) : String × Option String :=
  let name := arg.toList.takeWhile (· != '=')
  match arg.toList.drop name.length with
  | [] => (arg, none)
  | _ :: value => (String.ofList name, some (String.ofList value))

def isShortHelp (arg : String) : Bool :=
  match arg.toList with
  | '-' :: letters => !letters.isEmpty && letters.all (· == 'h')
  | _ => false

/-- Reads arguments. If options and other arguments may not be mixed, the first argument that is
no option ends the options; two dashes always do. -/
def scan (specs : List OptionSpec) (mixed : Bool) : List String → Except UsageError Arguments
  | [] => .ok {}
  | arg :: args =>
    if arg = "--" then .ok ⟨[], args⟩
    else if namesOption arg then
      let (name, attached) := split arg
      match specs.find? (·.name == name), attached with
      | none, _ =>
        if isShortHelp arg then do .ok ((← scan specs mixed args).withOption help "")
        else .error (.unknownOption name)
      | some spec, some value =>
        if spec.takesValue then do .ok ((← scan specs mixed args).withOption name value)
        else .error (.valueUnexpected name)
      | some spec, none =>
        if spec.takesValue then
          match args with
          | value :: args => do .ok ((← scan specs mixed args).withOption name value)
          | [] => .error (.valueMissing name)
        else do .ok ((← scan specs mixed args).withOption name "")
    else if mixed then do .ok ((← scan specs mixed args).withArgument arg)
    else .ok ⟨[], arg :: args⟩

def values (a : Arguments) (specs : List OptionSpec) : List String :=
  specs.filterMap fun spec => if spec.takesValue then a.value? spec.name else none

def required (a : Arguments) (name : String) : Except UsageError String :=
  match a.value? name with
  | some value => .ok value
  | none => .error (.optionMissing name)

end Arguments

end Reconciliation

import ApiGateway.Text.Split

/-! The command line. -/

namespace ApiGateway

structure Options where
  config : String
  watch : Bool
deriving DecidableEq

inductive UsageError where
  | missingConfig
  | missingValue (option : String)
  | unknown (argument : String)
deriving DecidableEq

def UsageError.message : UsageError → String
  | .missingConfig => "the option --config is required"
  | .missingValue option => s!"the option {option} needs a value"
  | .unknown argument => s!"unexpected argument {argument}"

namespace Options

def joinedValue? (argument : String) : Option String :=
  match Text.splitFirst? '=' argument.toList with
  | some (option, value) =>
    if String.ofList option = "--config" then some (String.ofList value) else none
  | none => none

def parseFrom (config : Option String) (watch : Bool) : List String → Except UsageError Options
  | [] =>
    match config with
    | some config => .ok ⟨config, watch⟩
    | none => .error .missingConfig
  | argument :: rest =>
    if argument = "--watch" || argument = "-w" then parseFrom config true rest
    else if argument = "--config" || argument = "-c" then
      match rest with
      | value :: rest => parseFrom (some value) watch rest
      | [] => .error (.missingValue argument)
    else match joinedValue? argument with
      | some value => parseFrom (some value) watch rest
      | none => .error (.unknown argument)

def parse (arguments : List String) : Except UsageError Options := parseFrom none false arguments

end Options
end ApiGateway

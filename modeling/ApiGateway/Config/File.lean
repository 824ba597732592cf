import ApiGateway.Config.Reader
import ApiGateway.Config.Validation
import ApiGateway.Text.Utf8

/-! Configuration files: the name decides the format. -/

namespace ApiGateway

inductive FileState where
  | missing
  | directory
  | regular (content : Text.Bytes)

inductive LoadError where
  | notFound (name : String)
  | isDirectory
  | notUtf8
  | parse (error : ParseError)
  | validation (errors : List ValidationError)

def ParseError.message : ParseError → String
  | .json e => e.message
  | .toml => "malformed TOML"

def LoadError.message : LoadError → String
  | .notFound name => "could not find config file " ++ name
  | .isDirectory => "could not read config file: Is a directory (os error 21)"
  | .notUtf8 => "could not read config file: stream did not contain valid UTF-8"
  | .parse e => "bad config file format: " ++ e.message
  | .validation errors => "validation failed: " ++ joinMessages errors

namespace Format

def extension? (path : String) : Option String :=
  let name := match Text.splitLast? '/' path.toList with
    | some (_, name) => name
    | none => path.toList
  match Text.splitLast? '.' name with
  | some ([], _) => none
  | some (_, extension) => some (String.ofList extension)
  | none => none

def ofFileName (name : String) : Format :=
  match extension? name with
  | some extension => if Text.eqIgnoreCase extension "json" then .json else .toml
  | none => .toml

end Format

namespace Config

def load (name : String) : FileState → Except LoadError Config
  | .missing => .error (.notFound name)
  | .directory => .error .isDirectory
  | .regular content =>
    match Text.decodeUtf8? content with
    | none => .error .notUtf8
    | some text =>
      match parse (.ofFileName name) text with
      | .error e => .error (.parse e)
      | .ok config =>
        match config.validate with
        | .error errors => .error (.validation errors)
        | .ok _ => .ok config

end Config
end ApiGateway

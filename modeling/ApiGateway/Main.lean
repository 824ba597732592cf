import ApiGateway.Action.Stock
import ApiGateway.Options
import ApiGateway.Startup

/-! The program: a gateway with the `echo` action, for requests given on standard input, one a line
as a method and a URI. Each answer is a line with the status, then the body. -/

namespace ApiGateway

def builtinActions : Registry := Registry.empty.registerStock "echo" .echo

def Request.ofLine? (line : String) : Option Request := do
  let (name, target) ← Text.splitFirst? ' ' line.trimAscii.toString.toList
  let m ← Method.ofText? (String.ofList name)
  let uri ← Uri.parse? (String.ofList target)
  some { Request.ofUri uri with method := m }

def readFileState (name : String) : IO FileState := do
  try
    let content ← IO.FS.readBinFile name
    return .regular content.toList
  catch error =>
    match error with
    | .noFileOrDirectory _ _ _ => return .missing
    | _ => return .directory

def freshId : IO (Option HeaderValue) := do
  let bytes ← IO.getRandomBytes 16
  return HeaderValue.ofText? (String.ofList (bytes.toList.flatMap fun byte =>
    [Text.hexDigit (byte.toNat / 16), Text.hexDigit (byte.toNat % 16)]))

def reloadFrom (options : Options) (service : Service) : IO Service := do
  if options.watch then
    match Config.load options.config (← readFileState options.config) with
    | .ok config => return (service.perform (.reload config)).2
    | .error _ => return service
  else return service

partial def serveLines (options : Options) (service : Service) : IO Unit := do
  let line ← (← IO.getStdin).getLine
  if line.isEmpty then return
  let service ← reloadFrom options service
  match Request.ofLine? line, ← freshId with
  | some r, some fresh =>
    let (answer, service) := service.perform (.request fresh r)
    match answer with
    | .served response _ =>
      IO.println s!"{response.status}"
      IO.println (Text.decodeLossy response.body)
    | _ => pure ()
    serveLines options service
  | _, _ =>
    IO.println "400"
    serveLines options service

end ApiGateway

open ApiGateway in
def main (arguments : List String) : IO UInt32 := do
  match Options.parse arguments with
  | .error e =>
    IO.eprintln ("error: " ++ e.message)
    return 2
  | .ok options =>
    match Service.ofFile builtinActions options.config (← readFileState options.config) with
    | .error e =>
      IO.eprintln ("pipeline-gateway: " ++ e.message)
      return 1
    | .ok service =>
      serveLines options service
      return 0

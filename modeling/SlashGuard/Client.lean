import SlashGuard.Wire.Connection

/-! The other end of a connection: what the reply to a request means to who asked. -/
namespace SlashGuard

inductive ClientFailure
  | notRunning
  | refused (message : String)
  | unexpected
  | service (f : ServiceFailure)
  | input (f : InputFault)
  | unknownValidator (key : PublicKey)
  | engine (f : Failure)
  | file (f : FileFault)
deriving DecidableEq, Repr

def ClientFailure.message : ClientFailure → String
  | .notRunning => "Daemon not running"
  | .refused message => "Request failed: " ++ message
  | .unexpected => "Unexpected response from daemon"
  | .service f => "Daemon error: " ++ f.message
  | .input f => "Invalid input: " ++ f.message
  | .unknownValidator key => "Validator " ++ key.toHex ++ " is not registered"
  | .engine f => "Slashing protection error: " ++ f.message
  | .file f => "IO error: " ++ f.message

namespace Client

def ofService : ServiceFailure → ClientFailure
  | .link .notRunning => .notRunning
  | f => .service f

def firstLine : List Char → List Char
  | [] => []
  | c :: cs => if c = '\n' then [c] else c :: firstLine cs

def receive (text : String) : Except ClientFailure Reply :=
  if text = "" then .error (.service (.link .closed))
  else
    match Json.decode Reply.decoder ((firstLine text.toList).map some) with
    | .error f => .error (.service (.decoding f))
    | .ok (.error message) => .error (.refused message)
    | .ok r => .ok r

def pong : Reply → Except ClientFailure String
  | .pong version => .ok version
  | _ => .error .unexpected

def verdict : Reply → Except ClientFailure Verdict
  | .decision v => .ok v
  | _ => .error .unexpected

end Client

end SlashGuard

import SlashGuard.Service

/-!
A connection: each line of what arrives is a request and gets one reply. The last line needs no
end. A line whose bytes are no text ends the connection.
-/
namespace SlashGuard.Connection

def lines : List UInt8 → List (List UInt8)
  | [] => []
  | b :: bs =>
    if b = 10 then [b] :: lines bs
    else match lines bs with
    | [] => [[b]]
    | l :: ls => (b :: l) :: ls

def request (line : List Char) : Except Json.Fault Request :=
  Json.decode Request.decoder (line.map some)

def reply (s : Service) (line : List Char) : Reply × Service :=
  match request line with
  | .ok r => s.handle r
  | .error f => (.error ("Invalid request: " ++ f.message), s)

/-- The replies to some lines, up to the first that is no text. -/
def replies (s : Service) : List (List UInt8) → List Reply × Service
  | [] => ([], s)
  | line :: rest =>
    match Text.Utf8.text? line with
    | none => ([], s)
    | some text =>
      let (r, s) := reply s text
      let (rs, s) := replies s rest
      (r :: rs, s)

def serve (s : Service) (bytes : List UInt8) : List Reply × Service := replies s (lines bytes)

def line (v : Json.Value) : String := v.line ++ "\n"

end SlashGuard.Connection

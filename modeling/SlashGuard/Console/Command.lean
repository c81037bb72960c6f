/-! The commands of the console. -/
namespace SlashGuard

inductive Command
  | migrate
  | importFile (file : String)
  | exportFile (file : Option String)
  | prune (keep : UInt64) (key : Option String)
  | register (keys : List String)
  | list
  | ping
  | checkBlock (key : String) (slot : UInt64) (root : String) (network : Option String)
  | checkAttestation (key : String) (source target : UInt64) (root : String)
      (network : Option String)
deriving DecidableEq, Repr

structure Invocation where
  database : Option String
  socket : Option String
  command : Command
deriving DecidableEq, Repr

end SlashGuard

import SlashGuard.PublicKey
import SlashGuard.Root

/-!
Why an operation on a ledger fails, and the words for it. A failure is the caller's, by input that
cannot be accepted, or the store's; a refusal to sign is no failure.
-/
namespace SlashGuard

def schemaVersion : Nat := 1

/-- What the store itself can object to. Columns are those of the row that was asked for. -/
inductive StoreFault
  | orphan
  | duplicate (columns : String)
  | negative (value : Int) (column : Nat)
  | badRoot (column : Nat) (fault : InputFault)
  | cannotOpen (path : String)
  | nulInPath (position : Nat)
  | badAuthority (text : String)
  | unknown (what value : String)
  | notAllowed (mode : String)
  | noJournal
  | notDatabase
  | damaged
  | badFormat
  | readOnly
  | locked
  | protocol
  | io
  | full
deriving DecidableEq, Repr

inductive FileFault
  | missing
  | exists
  | notDirectory
  | isDirectory
  | nameTooLong
  | noDevice
  | invalid
  | noSpace
  | nul
deriving DecidableEq, Repr

inductive Quantity
  | slot
  | source
  | target
  | offset
deriving DecidableEq, Repr

inductive Failure
  | store (fault : StoreFault)
  | file (fault : FileFault)
  | missingVersion
  | wrongVersion (found : Int)
  | poisoned
  | input (fault : InputFault)
  | otherNetwork (supplied stored : Root)
  | noNetwork
  | badRange (index : Nat) (key : PublicKey)
  | outOfRange (quantity : Quantity) (value : UInt64)
  | unregistered (id : Int)
  | nothingKept
deriving DecidableEq, Repr

def StoreFault.message : StoreFault → String
  | .orphan => "FOREIGN KEY constraint failed"
  | .duplicate columns => "UNIQUE constraint failed: " ++ columns
  | .negative value column =>
    "Integer " ++ toString value ++ " out of range at index " ++ toString column
  | .badRoot column fault =>
    "Conversion error from type Blob at index: " ++ toString column ++ ", " ++ fault.message
  | .cannotOpen path => "unable to open database file: " ++ path
  | .nulInPath position =>
    "nul byte found in provided data at position: " ++ toString position
  | .badAuthority text => "invalid uri authority: " ++ text
  | .unknown what value => "no such " ++ what ++ ": " ++ value
  | .notAllowed mode => "access mode not allowed: " ++ mode
  | .noJournal => "unable to open database file"
  | .notDatabase => "file is not a database"
  | .damaged => "database disk image is malformed"
  | .badFormat => "unsupported file format"
  | .readOnly => "attempt to write a readonly database"
  | .locked => "database is locked"
  | .protocol => "locking protocol"
  | .io => "disk I/O error"
  | .full => "database or disk is full"

def FileFault.message : FileFault → String
  | .missing => "No such file or directory (os error 2)"
  | .exists => "File exists (os error 17)"
  | .notDirectory => "Not a directory (os error 20)"
  | .isDirectory => "Is a directory (os error 21)"
  | .nameTooLong => "File name too long (os error 36)"
  | .noDevice => "No such device or address (os error 6)"
  | .invalid => "Invalid argument (os error 22)"
  | .noSpace => "No space left on device (os error 28)"
  | .nul => "file name contained an unexpected NUL byte"

def Quantity.name : Quantity → String
  | .slot => "slot"
  | .source => "source_epoch"
  | .target => "target_epoch"
  | .offset => "offset"

namespace Failure

def isStorage : Failure → Bool
  | .store _ | .file _ | .missingVersion | .wrongVersion _ | .poisoned => true
  | _ => false

def message : Failure → String
  | .store fault => "Database error: " ++ fault.message
  | .file fault => "IO error: " ++ fault.message
  | .missingVersion => "Failed to read database version, expected " ++ toString schemaVersion
  | .wrongVersion found =>
    "Database version (" ++ toString found ++ ") does not match expected version (" ++
      toString schemaVersion ++ "), please run migrations and try again."
  | .poisoned => "Slashing database lock poisoned"
  | .input fault => "Invalid interchange data: " ++ fault.message
  | .otherNetwork supplied stored =>
    "Supplied genesis validators root " ++ supplied.toHex ++
      " does not match value in database " ++ stored.toHex
  | .noNetwork => "No genesis validators root for slashing protection data"
  | .badRange index key =>
    "Attestation #" ++ toString index ++ " for validator " ++ key.toHex ++
      " - source is greater than target epoch"
  | .outOfRange quantity value =>
    quantity.name ++ " value " ++ toString value.toNat ++ " exceeds the storable range"
  | .unregistered id => "Validator " ++ toString id ++ " is not registered"
  | .nothingKept => "entries to keep must be at least 1"

end Failure

end SlashGuard

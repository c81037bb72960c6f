import SlashGuard.Ledger.History

/-!
The ledger: the registered validators with what each has signed, the network they sign for, and
the schema version. Every row belongs to a registered validator. An operation that fails gives no
ledger, so what it began is undone.
-/
namespace SlashGuard

structure Account where
  id : Int
  key : List UInt8
  history : History
deriving DecidableEq, Repr

/-- `issued` is the last id given out; `accounts` are in the order of their ids. -/
structure Ledger where
  version : Option Int
  network : Option (List UInt8)
  issued : Int
  accounts : List Account
deriving DecidableEq, Repr

namespace Ledger

def blank : Ledger := ⟨none, none, 0, []⟩

def migrate (l : Ledger) : Ledger := { l with version := some (l.version.getD schemaVersion) }

def fresh : Ledger := blank.migrate

def recordVersion (l : Ledger) (v : Int) : Except Failure Ledger :=
  match l.version with
  | none => .ok { l with version := some v }
  | some _ => .error (.store (.duplicate "database_version.id"))

def checkVersion (l : Ledger) : Except Failure Unit :=
  match l.version with
  | none => .error .missingVersion
  | some v => if v = schemaVersion then .ok () else .error (.wrongVersion v)

def readNetwork (l : Ledger) : Except Failure (Option Root) :=
  match l.network with
  | none => .ok none
  | some bytes => (readRoot .network 0 bytes).map some

def recordNetwork (l : Ledger) (r : Root) : Bool × Ledger :=
  match l.network with
  | none => (true, { l with network := some r.bytes })
  | some _ => (false, l)

def idOf (l : Ledger) (key : PublicKey) : Option Int :=
  (l.accounts.find? fun a => a.key = key.bytes).map Account.id

def isRegistered (l : Ledger) (id : Int) : Bool := l.accounts.any fun a => a.id = id

def ids (l : Ledger) : List Int := l.accounts.map Account.id

def keys (l : Ledger) : Except Failure (List (Int × PublicKey)) :=
  l.accounts.mapM fun a =>
    match PublicKey.ofBytes a.key with
    | .ok key => .ok (a.id, key)
    | .error fault => .error (.input fault)

/-- Registers a key and answers its id. The next id is used up even if the key has one. -/
def enroll (l : Ledger) (key : PublicKey) : Int × Ledger :=
  match l.idOf key with
  | some id => (id, { l with issued := l.issued + 1 })
  | none =>
    let id := l.issued + 1
    (id, { l with issued := id, accounts := l.accounts ++ [⟨id, key.bytes, .empty⟩] })

def enrollAll (l : Ledger) : List PublicKey → List Int × Ledger
  | [] => ([], l)
  | key :: keys =>
    let (id, l) := l.enroll key
    let (ids, l) := enrollAll l keys
    (id :: ids, l)

def history (l : Ledger) (id : Int) : History :=
  ((l.accounts.find? fun a => a.id = id).map Account.history).getD .empty

def amend (l : Ledger) (id : Int) (f : History → History) : Ledger :=
  { l with accounts := l.accounts.map fun a =>
      if a.id = id then { a with history := f a.history } else a }

def write (l : Ledger) (id : Int) (f : History → History) : Except Failure Ledger :=
  if l.isRegistered id then .ok (l.amend id f) else .error (.store .orphan)

end Ledger

end SlashGuard

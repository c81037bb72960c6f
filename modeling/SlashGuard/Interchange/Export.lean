import SlashGuard.Interchange.Document
import SlashGuard.Ledger.Blocks
import SlashGuard.Ledger.Attestations

/-! Export of a ledger: every validator in the order of ids with all it has signed. -/
namespace SlashGuard.Export

def history (l : Ledger) (id : Int) (key : PublicKey) : Except Failure KeyHistory := do
  return ⟨key, ← l.blocks id, ← l.attestations id⟩

def document (l : Ledger) : Except Failure Document := do
  match ← l.readNetwork with
  | none => .error .noNetwork
  | some network =>
    let keys ← l.keys
    return .current network (← keys.mapM fun (id, key) => history l id key)

end SlashGuard.Export

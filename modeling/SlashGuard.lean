import SlashGuard.Main
import SlashGuard.Ledger.Direct
import SlashGuard.Schedule
import SlashGuard.Proofs.Judgement
import SlashGuard.Proofs.Accounts
import SlashGuard.Proofs.Floors
import SlashGuard.Proofs.Kept
import SlashGuard.Proofs.Changes
import SlashGuard.Proofs.Coverage
import SlashGuard.Proofs.PruningRules
import SlashGuard.Proofs.SigningRules
import SlashGuard.Proofs.ImportRules
import SlashGuard.Proofs.Moves
import SlashGuard.Proofs.Calls
import SlashGuard.Proofs.Runs
import SlashGuard.Proofs.Approvals
import SlashGuard.Proofs.PruningSafety
import SlashGuard.Proofs.StoreInvariant
import SlashGuard.Proofs.Digits
import SlashGuard.Proofs.Lexing
import SlashGuard.Proofs.Readings
import SlashGuard.Proofs.Documents
import SlashGuard.Proofs.Order
import SlashGuard.Proofs.OtherFiles
import SlashGuard.Proofs.ConsoleAgreement
import SlashGuard.Proofs.Joins
import SlashGuard.Proofs.Absorption
import SlashGuard.Proofs.Faults
import SlashGuard.Proofs.Tallies
import SlashGuard.Proofs.Reached
import SlashGuard.Proofs.ImportOutcome
import SlashGuard.Proofs.Retelling
import SlashGuard.Proofs.ImportJoin
import SlashGuard.Proofs.RoundTrip
import SlashGuard.Proofs.Migration
import SlashGuard.Proofs.Writes
import SlashGuard.Proofs.RisingMarks
import SlashGuard.Proofs.ImportTightening
import SlashGuard.Proofs.Progress
import SlashGuard.Proofs.Retries
import SlashGuard.Proofs.OneNetwork
import SlashGuard.Proofs.Trees
import SlashGuard.Proofs.Persistence
import SlashGuard.Proofs.Openings
import SlashGuard.Proofs.Restarts
import SlashGuard.Proofs.SigningEffects
import SlashGuard.Proofs.Locality
import SlashGuard.Proofs.Independence
import SlashGuard.Proofs.Characters
import SlashGuard.Proofs.Decoding
import SlashGuard.Proofs.Framing
import SlashGuard.Proofs.Messages
import SlashGuard.Proofs.Registry
import SlashGuard.Proofs.Serving
import SlashGuard.Proofs.NewestRows
import SlashGuard.Proofs.PruningEffect
import SlashGuard.Proofs.PruningTwice
import SlashGuard.Proofs.SigningAboveFloor
import SlashGuard.Proofs.PruningCalls
import SlashGuard.Proofs.PruningPasses
import SlashGuard.Proofs.Numerals
import SlashGuard.Proofs.SettingsRoundTrip
import SlashGuard.Proofs.Omissions
import SlashGuard.Proofs.Clashes
import SlashGuard.Proofs.ImportCounts

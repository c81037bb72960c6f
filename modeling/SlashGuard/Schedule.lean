import SlashGuard.Service

/-! The schedule of pruning: a pass when it begins, if that is wanted, and one each time the
interval has passed. A pass that fails does not stop the next. -/
namespace SlashGuard.Schedule

def passes (p : PruningSettings) (seconds : Nat) : Nat :=
  (if p.atBoot then 1 else 0) + seconds / p.interval.toNat

def run (keep : UInt64) : Nat → Service → List (Except ServiceFailure PruneSummary) × Service
  | 0, s => ([], s)
  | n + 1, s =>
    match s.pruneAll keep with
    | .ok (o, s) =>
      let (os, s) := run keep n s
      (.ok o :: os, s)
    | .error f =>
      let (os, s) := run keep n s
      (.error f :: os, s)

def runFor (p : PruningSettings) (seconds : Nat) (s : Service) :
    List (Except ServiceFailure PruneSummary) × Service :=
  run p.keep (passes p seconds) s

end SlashGuard.Schedule

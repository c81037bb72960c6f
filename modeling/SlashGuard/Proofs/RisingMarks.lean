import SlashGuard.Proofs.Writes

/-! Marks only rise. No write of a ledger unsets or lowers a mark of a floor, be it made by a call
or by setting marks directly, in any order and with any numbers. -/
namespace SlashGuard

namespace History

structure Lifts (h h' : History) : Prop where
  slot : Rises h.floorOrEmpty.slot h'.floorOrEmpty.slot
  source : Rises h.floorOrEmpty.source h'.floorOrEmpty.source
  target : Rises h.floorOrEmpty.target h'.floorOrEmpty.target

theorem Lifts.refl (h : History) : h.Lifts h := ⟨.refl _, .refl _, .refl _⟩

theorem Lifts.trans {h h' h'' : History} (first : h.Lifts h') (second : h'.Lifts h'') :
    h.Lifts h'' where
  slot := first.slot.trans second.slot
  source := first.source.trans second.source
  target := first.target.trans second.target

theorem lifts_of_floor {h h' : History} (same : h'.floorOrEmpty = h.floorOrEmpty) :
    h.Lifts h' := by
  constructor <;> rw [same] <;> exact .refl _

theorem Edit.lifts {drops : Prop} {h h' : History} (edit : h.Edit drops h') : h.Lifts h' := by
  cases edit with
  | addBlock b =>
    apply lifts_of_floor
    rw [addBlock_eq]
    rfl
  | addAttestation a =>
    apply lifts_of_floor
    rw [addAttestation_eq]
    rfl
  | initSlot slot => exact ⟨rises_getD _ slot, .refl _, .refl _⟩
  | initEpochs source target => exact ⟨.refl _, rises_getD _ source, rises_getD _ target⟩
  | raiseSlot slot => exact ⟨rises_max _ slot, .refl _, .refl _⟩
  | raiseEpochs source target => exact ⟨.refl _, rises_max _ source, rises_max _ target⟩
  | dropBlocks may slot => exact lifts_of_floor rfl
  | dropAttestations may target => exact lifts_of_floor rfl

end History

theorem Ledger.Writes.lifts {drops : Prop} {l l' : Ledger} (writes : Writes drops l l')
    (id : Int) : (l.history id).Lifts (l'.history id) := by
  induction writes with
  | refl => exact .refl _
  | tail _ write ih =>
    rcases write.edits id with same | edit
    · rwa [same]
    · exact ih.trans edit.lifts

/-- A mark of a validator is set or raised directly, without the rules of signing. -/
inductive Marking
  | initSlot (id : Int) (slot : Slot)
  | initEpochs (id : Int) (source target : Epoch)
  | raiseSlot (id : Int) (slot : Slot)
  | raiseEpochs (id : Int) (source target : Epoch)

namespace Marking

def attempt (l : Ledger) : Marking → Except Failure Ledger
  | .initSlot id slot => l.initSlot id slot
  | .initEpochs id source target => l.initEpochs id source target
  | .raiseSlot id slot => l.raiseSlot id slot
  | .raiseEpochs id source target => l.raiseEpochs id source target

/-- One that fails changes nothing, and others may follow. -/
def apply (l : Ledger) (m : Marking) : Ledger :=
  match m.attempt l with
  | .ok l' => l'
  | .error _ => l

theorem attempt_writes {l l' : Ledger} {m : Marking} (done : m.attempt l = .ok l') :
    Ledger.Writes False l l' := by
  cases m with
  | initSlot id slot => exact Ledger.initSlot_writes done
  | initEpochs id source target => exact Ledger.initEpochs_writes done
  | raiseSlot id slot => exact Ledger.raiseSlot_writes done
  | raiseEpochs id source target => exact Ledger.raiseEpochs_writes done

theorem apply_writes (l : Ledger) (m : Marking) : Ledger.Writes False l (apply l m) := by
  unfold apply
  split
  · exact attempt_writes ‹_›
  · exact .refl

theorem foldl_apply_writes (ms : List Marking) (l : Ledger) :
    Ledger.Writes False l (ms.foldl apply l) := by
  induction ms generalizing l with
  | nil => exact .refl
  | cons m ms ih => exact (apply_writes l m).trans (ih (apply l m))

end Marking

inductive Act
  | call (c : Call)
  | transaction (ms : List Marking) (commits : Bool)

namespace Engine

def transact (e : Engine) (ms : List Marking) (commits : Bool) : Engine :=
  match e.writer fun _ => true with
  | .ok l => if commits then { e with ledger := ms.foldl Marking.apply l } else e
  | .error _ => e

def act (e : Engine) : Act → Engine
  | .call c => (e.call c).2
  | .transaction ms commits => e.transact ms commits

def acts (e : Engine) (as : List Act) : Engine := as.foldl act e

theorem transact_lifts (e : Engine) (ms : List Marking) (commits : Bool) (id : Int) :
    (e.ledger.history id).Lifts ((e.transact ms commits).ledger.history id) := by
  unfold transact
  split
  · rename_i given
    cases writer_ok given
    split
    · exact (Marking.foldl_apply_writes ms e.ledger).lifts id
    · exact .refl _
  · exact .refl _

theorem act_lifts (e : Engine) (a : Act) (id : Int) :
    (e.ledger.history id).Lifts ((e.act a).ledger.history id) := by
  cases a with
  | call c => exact (call_writes e c).lifts id
  | transaction ms commits => exact transact_lifts e ms commits id

theorem acts_lifts (e : Engine) (as : List Act) (id : Int) :
    (e.ledger.history id).Lifts ((e.acts as).ledger.history id) := by
  induction as generalizing e with
  | nil => exact .refl _
  | cons a as ih => exact (act_lifts e a id).trans (ih (e.act a))

/-- From any state of a run of calls and transactions to any later one, no mark of a validator that
is set is unset or lowered. -/
theorem marks_rise (e : Engine) (as later : List Act) (id : Int) :
    History.Rises ((e.acts as).ledger.history id).floorOrEmpty.slot
        ((e.acts (as ++ later)).ledger.history id).floorOrEmpty.slot ∧
      History.Rises ((e.acts as).ledger.history id).floorOrEmpty.source
        ((e.acts (as ++ later)).ledger.history id).floorOrEmpty.source ∧
      History.Rises ((e.acts as).ledger.history id).floorOrEmpty.target
        ((e.acts (as ++ later)).ledger.history id).floorOrEmpty.target := by
  have split : e.acts (as ++ later) = (e.acts as).acts later := by
    simp only [acts, List.foldl_append]
  rw [split]
  have lifts := acts_lifts (e.acts as) later id
  exact ⟨lifts.slot, lifts.source, lifts.target⟩

example : ((fresh.acts [.call (.register [.single 1]),
    .transaction [.raiseSlot 1 ⟨7⟩, .initSlot 1 ⟨9⟩] true,
    .transaction [.raiseSlot 1 ⟨8⟩] false,
    .transaction [.initEpochs 1 ⟨4⟩ ⟨2⟩, .raiseSlot 2 ⟨1⟩, .raiseEpochs 1 ⟨3⟩ ⟨6⟩] true
    ]).ledger.history 1).floor = some ⟨some 7, some 4, some 6⟩ := by
  decide +kernel

end Engine

end SlashGuard

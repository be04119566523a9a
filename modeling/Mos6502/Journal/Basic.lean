import Mos6502.Journal.Event

/-!
# Journals

A journal keeps the events that matter enough to it, in the order in which they happened. One
without a threshold keeps none.
-/

namespace Mos6502

/-- The events kept so far, oldest first. -/
structure Journal where
  /-- The least level that is kept. -/
  threshold : Option Level := none
  events : Array Event := #[]
  deriving DecidableEq, Repr

namespace Journal

/-- Whether events of a level are kept. -/
def keeps (journal : Journal) (level : Level) : Bool :=
  match journal.threshold with
  | none => false
  | some threshold => level.depth ≤ threshold.depth

/-- Note an event. -/
def note (journal : Journal) (event : Event) : Journal :=
  if journal.keeps event.level then
    let ⟨threshold, events⟩ := journal
    ⟨threshold, events.push event⟩
  else
    journal

end Journal

end Mos6502

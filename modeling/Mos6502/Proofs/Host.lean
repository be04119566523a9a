import Mos6502.Clock.Grid

/-!
# What a host lets a machine see

A machine sees two things of its host: what the journal keeps, which never changes, and the time.
-/

namespace Mos6502

theorem Journal.threshold_note (journal : Journal) (event : Event) :
    (journal.note event).threshold = journal.threshold := by
  unfold note
  split <;> rfl

namespace Host

variable {τ : Type}

/-- Whether instructions are traced. -/
def tracing (host : Host τ) : Bool :=
  host.journal.keeps .trace

theorem tracing_congr {τ' : Type} {host : Host τ} {host' : Host τ'}
    (h : host.journal.threshold = host'.journal.threshold) : host.tracing = host'.tracing := by
  unfold tracing Journal.keeps
  rw [h]

variable [TimeSource τ]

/-- The time a host tells if it is asked at once. -/
def reading (host : Host τ) : Instant :=
  (TimeSource.now.run host.time).1

/-- Waiting notes nothing. -/
theorem journal_wait (grid : FrameGrid) (host : Host τ) :
    (grid.wait.run host).2.journal = host.journal := by
  show (StateT.run (if (now.run host).1 < grid.next then _ else _ :
    StateM (Host τ) (UInt64 × FrameGrid)) (now.run host).2).2.journal = _
  by_cases h : (now.run host).1 < grid.next
  · rw [if_pos h]
    rfl
  · rw [if_neg h]
    rfl

end Host

end Mos6502

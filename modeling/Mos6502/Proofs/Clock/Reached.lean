import Mos6502.Proofs.Clock.Pace
import Mos6502.Proofs.Clock.Projection

/-!
# What a run reaches

A run of a stopped clock is a sequence of frames, and a frame is a sequence of calls. With a given
handler, on a given session, it is settled which state and which session each of them begins with:
those that the calls before it have left. What a handler does elsewhere is of no concern to the run.

**Frames** (`ReachesFrame`). The first frame begins once the clock is started. Another one begins if
the clock is running after a frame, once the clock has waited for its deadline.

**Calls** (`ReachesCall`). Within a frame the calls follow each other at once.
-/

namespace Mos6502.Clock

variable {τ σ σ' : Type} [TimeSource τ]

/-- A run of the handler from `initial` and `start` comes to its frame number `m`, which begins with
`state` and `session`. -/
inductive ReachesFrame (handler : σ → ClockM τ σ) (initial : σ) (start : ClockSession τ) :
    (m : Nat) → σ → ClockSession τ → Prop
  | first : ReachesFrame handler initial start 0 initial start.started
  | next {m : Nat} {state state' : σ} {session session' : ClockSession τ} {grid : FrameGrid}
    (h : ReachesFrame handler initial start m state session)
    (hframe : frame handler state session = some ((true, state'), session'))
    (hrunning : session'.clock.running = true) (hgrid : session'.clock.grid = some grid) :
    ReachesFrame handler initial start (m + 1) state' (session'.woken grid)

/-- A run of the handler from `initial` and `start` comes to a call, which is made with `state` and
`session` after `j` other calls. -/
inductive ReachesCall (handler : σ → ClockM τ σ) (initial : σ) (start : ClockSession τ) :
    (j : Nat) → σ → ClockSession τ → Prop
  | inFrame {m n : Nat} {state state' : σ} {session session' : ClockSession τ}
    (h : ReachesFrame handler initial start m state session) (hn : n < start.clock.pace.calls)
    (hcalls : repeatCalls handler n state session.entered.2 = some (state', session')) :
    ReachesCall handler initial start (m * start.clock.pace.calls + n) state' session'

namespace Projects

variable {project : σ' → σ} {fuller : σ' → ClockM τ σ'} {handler : σ → ClockM τ σ} {initial : σ'}
  {start : ClockSession τ}

theorem reachesFrame (h : Projects project fuller handler) {m : Nat} {state : σ'}
    {session : ClockSession τ} (hframe : ReachesFrame fuller initial start m state session) :
    ReachesFrame handler (project initial) start m (project state) session := by
  induction hframe with
  | first => exact .first
  | next _ hmade hrunning hgrid ih =>
    refine .next ih ?_ hrunning hgrid
    rw [← h.frame, hmade]
    rfl

/-- **The calls of the fuller handler are those of the other**, with the state projected. -/
theorem reachesCall (h : Projects project fuller handler) {j : Nat} {state : σ'}
    {session : ClockSession τ} (hcall : ReachesCall fuller initial start j state session) :
    ReachesCall handler (project initial) start j (project state) session := by
  obtain ⟨hframe, hn, hcalls⟩ := hcall
  refine .inFrame (h.reachesFrame hframe) hn ?_
  rw [← h.repeatCalls, hcalls]
  rfl

end Projects

end Mos6502.Clock

import Mos6502.Memory.Flat
import Mos6502.Proofs.Clock.Stopping
import Mos6502.Proofs.Processor.Paced

/-!
# Pacing changes nothing

A paced processor makes the steps that it would make without a clock. The two runs read the time
at different moments, so they are compared without the moments they note (`Processor.untimed`),
and a caller's question counts as answered if the answer does not depend on them
(`Processor.Answers`).

**Main result** (`paceUntil_eq_steps`). If steps made one after another first fail or satisfy the
caller at the `k`-th, a paced execution ends with the result of that step and with what that step
made of the processor. The caller is asked once after each step that succeeded, and the clock ends
stopped and idle after the least number of frames that hold `k` calls.

The handler of a paced execution stops its clock in its `k`-th call, so the clock's side is
`Clock.run_of_stopsAt`. The processor's side is an invariant of the handler's state after `j` calls
(`PacedRun.Follows`): up to the `k`-th call it is where `j` steps lead, and from then on it stays
where `k` steps lead.
-/

namespace Mos6502

namespace Processor

variable {β τ τ' : Type} [Bus β] [TimeSource τ] [TimeSource τ']

/-! ## Steps in a row -/

/-- `n` steps in a row, whatever they result in. The result is that of the last. -/
def steps (cpu : Processor β) : (n : Nat) → StateM (Host τ) (Except Fault Unit × Processor β)
  | 0 => return (.ok (), cpu)
  | n + 1 => do
    let (_, cpu) ← cpu.steps n
    cpu.step

/-- The result of the `n`-th step on a host, and the processor after it. -/
def afterSteps (cpu : Processor β) (host : Host τ) (n : Nat) : Except Fault Unit × Processor β :=
  ((cpu.steps n).run host).1

/-- The processors, without their moments, after those of the first `n` steps that succeeded. -/
def successes (cpu : Processor β) (host : Host τ) (n : Nat) : List (Processor β) :=
  ((List.range n).filter fun i => (cpu.afterSteps host (i + 1)).1.isOk).map fun i =>
    (cpu.afterSteps host (i + 1)).2.untimed

/-- What `p` says of a processor, whatever its moments are. -/
def Answers (p : Processor β → Bool) (cpu : Processor β) (answer : Bool) : Prop :=
  ∀ cpu' : Processor β, cpu'.untimed = cpu.untimed → p cpu' = answer

/-- Of steps in a row, the `k`-th is the first that fails or satisfies `p`. -/
structure EndsAt (p : Processor β → Bool) (cpu : Processor β) (host : Host τ) (k : Nat) :
    Prop where
  pos : 0 < k
  before : ∀ i, 0 < i → i < k → (cpu.afterSteps host i).1 = .ok () ∧
    Answers p (cpu.afterSteps host i).2 false
  last : (cpu.afterSteps host k).1 = .ok () → Answers p (cpu.afterSteps host k).2 true

theorem afterSteps_zero (cpu : Processor β) (host : Host τ) :
    cpu.afterSteps host 0 = (.ok (), cpu) :=
  rfl

theorem threshold_steps (cpu : Processor β) (host : Host τ) (n : Nat) :
    ((cpu.steps n).run host).2.journal.threshold = host.journal.threshold := by
  induction n with
  | zero => rfl
  | succ n ih =>
    obtain ⟨host', hstep, hthreshold⟩ :=
      (cpu.afterSteps host n).2.run_step ((cpu.steps n).run host).2
    show (((cpu.afterSteps host n).2.step).run ((cpu.steps n).run host).2).2.journal.threshold = _
    rw [hstep]
    exact hthreshold.trans ih

theorem afterSteps_succ (cpu : Processor β) (host : Host τ) (n : Nat) :
    ∃ now : Instant, cpu.afterSteps host (n + 1) =
      (cpu.afterSteps host n).2.stepAt host.tracing now := by
  obtain ⟨host', hstep, -⟩ := (cpu.afterSteps host n).2.run_step ((cpu.steps n).run host).2
  refine ⟨((cpu.steps n).run host).2.reading, ?_⟩
  rw [← Host.tracing_congr (cpu.threshold_steps host n)]
  exact congrArg Prod.fst hstep

theorem successes_succ (cpu : Processor β) (host : Host τ) (n : Nat) :
    cpu.successes host (n + 1) = cpu.successes host n ++
      if (cpu.afterSteps host (n + 1)).1.isOk then [(cpu.afterSteps host (n + 1)).2.untimed]
      else [] := by
  unfold successes
  rw [List.range_succ, List.filter_append, List.map_append]
  cases h : (cpu.afterSteps host (n + 1)).1.isOk <;> simp [h]

/-- **A step from the same place leads to the same place**, on any host that keeps as much. -/
theorem step_of_untimed_eq {cpu here : Processor β} {plain : Host τ'} {host : Host τ} {n : Nat}
    (hhere : here.untimed = (cpu.afterSteps plain n).2.untimed)
    (hkeeps : host.journal.threshold = plain.journal.threshold) :
    ∃ (there : Processor β) (host' : Host τ),
      here.step.run host = (((cpu.afterSteps plain (n + 1)).1, there), host') ∧
      there.untimed = (cpu.afterSteps plain (n + 1)).2.untimed ∧
      host'.journal.threshold = host.journal.threshold := by
  obtain ⟨host', hstep, hthreshold⟩ := here.run_step host
  obtain ⟨now, hnext⟩ := cpu.afterSteps_succ plain n
  obtain ⟨hresult, hcpu⟩ := stepAt_congr plain.tracing host.reading now hhere
  rw [Host.tracing_congr hkeeps] at hstep
  rw [hnext]
  exact ⟨_, host', by rw [hstep, ← hresult], hcpu, hthreshold⟩

/-! ## The handler -/

/-- A question that changes nothing, with the processors it was asked about for a memo. -/
def asking (p : Processor β → Bool) (cpu : Processor β) (asked : List (Processor β)) :
    ClockM τ (Bool × List (Processor β)) :=
  return (p cpu, asked ++ [cpu])

/-- What `j` calls of the handler have made of an execution that ends at the `k`-th step. -/
structure PacedRun.Tracks (cpu : Processor β) (plain : Host τ') (k j : Nat)
    (run : PacedRun β (List (Processor β))) : Prop where
  place : run.cpu.untimed = (cpu.afterSteps plain (min j k)).2.untimed
  asked : run.memo.map untimed = cpu.successes plain (min j k)
  outcome : run.outcome = if j < k then none else some (cpu.afterSteps plain k).1

variable {p : Processor β → Bool} {cpu : Processor β} {plain : Host τ'} {k : Nat}

/-- Before the last step has been made, nothing is concluded. -/
theorem PacedRun.Tracks.of_lt {j : Nat} {run : PacedRun β (List (Processor β))}
    (h : run.Tracks cpu plain k j) (hj : j < k) :
    run.cpu.untimed = (cpu.afterSteps plain j).2.untimed ∧
      run.memo.map untimed = cpu.successes plain j ∧ run.outcome = none := by
  obtain ⟨hplace, hasked, houtcome⟩ := h
  rw [Nat.min_eq_left (Nat.le_of_lt hj)] at hplace hasked
  rw [if_pos hj] at houtcome
  exact ⟨hplace, hasked, houtcome⟩

/-- A call before the last is a step that succeeds and does not satisfy the caller. -/
theorem pacedStep_of_lt (hends : EndsAt p cpu plain k) {j : Nat} (hj : j + 1 < k)
    {run : PacedRun β (List (Processor β))} {session : ClockSession τ}
    (htracks : run.Tracks cpu plain k j)
    (hthreshold : session.host.journal.threshold = plain.journal.threshold) :
    ∃ (run' : PacedRun β (List (Processor β))) (host' : Host τ),
      pacedStep (asking p) run session = some (run', session.onto host') ∧
      run'.Tracks cpu plain k (j + 1) ∧
      host'.journal.threshold = session.host.journal.threshold := by
  obtain ⟨here, asked, outcome⟩ := run
  obtain ⟨hplace, hasked, rfl⟩ := htracks.of_lt (Nat.lt_of_succ_lt hj)
  obtain ⟨there, host', hstep, hthere, hkeeps⟩ := step_of_untimed_eq hplace hthreshold
  obtain ⟨hok, hanswer⟩ := hends.before (j + 1) (Nat.succ_pos j) hj
  have hsuccesses := cpu.successes_succ plain j
  rw [hok] at hstep hsuccesses
  have hmin : min (j + 1) k = j + 1 := Nat.min_eq_left (Nat.le_of_lt hj)
  refine ⟨⟨there, asked ++ [there], none⟩, host', ?_, ⟨?_, ?_, (if_pos hj).symm⟩, hkeeps⟩
  · rw [pacedStep_of_ok _ hstep]
    show (if p there = true then _ else _) = _
    rw [hanswer there hthere]
    rfl
  · rw [hmin]
    exact hthere
  · rw [hmin, hsuccesses, ← hasked, ← hthere]
    exact List.map_append

/-- The last call is a step that fails or satisfies the caller, and it stops the clock. -/
theorem pacedStep_of_eq (hends : EndsAt p cpu plain k) {j : Nat} (hj : j + 1 = k)
    {run : PacedRun β (List (Processor β))} {session : ClockSession τ}
    (htracks : run.Tracks cpu plain k j)
    (hthreshold : session.host.journal.threshold = plain.journal.threshold)
    (hrunning : session.clock.running = true) {grid : FrameGrid}
    (hgrid : session.clock.grid = some grid) :
    ∃ (run' : PacedRun β (List (Processor β))) (host' : Host τ),
      pacedStep (asking p) run session = some (run', (session.onto host').stopped) ∧
      run'.Tracks cpu plain k (j + 1) ∧
      host'.journal.threshold = session.host.journal.threshold := by
  obtain ⟨here, asked, outcome⟩ := run
  obtain ⟨hplace, hasked, rfl⟩ := htracks.of_lt (Nat.lt_of_succ_le (Nat.le_of_eq hj))
  obtain ⟨there, host', hstep, hthere, hkeeps⟩ := step_of_untimed_eq hplace hthreshold
  have hsuccesses := cpu.successes_succ plain j
  have hlast := hends.last
  subst hj
  have hmin : min (j + 1) (j + 1) = j + 1 := Nat.min_self _
  cases hresult : (cpu.afterSteps plain (j + 1)).1 with
  | error fault =>
    rw [hresult] at hstep hsuccesses
    refine ⟨⟨there, asked, some (.error fault)⟩, host', ?_, ⟨?_, ?_, ?_⟩, hkeeps⟩
    · rw [pacedStep_of_error _ hstep,
        conclude_of_running _ (session.onto host') hrunning hgrid]
      rfl
    · rw [hmin]
      exact hthere
    · rw [hmin, hsuccesses, ← hasked]
      exact (List.append_nil _).symm
    · rw [if_neg (Nat.lt_irrefl _), hresult]
  | ok _ =>
    rw [hresult] at hstep hsuccesses
    refine ⟨⟨there, asked ++ [there], some (.ok ())⟩, host', ?_, ⟨?_, ?_, ?_⟩, hkeeps⟩
    · rw [pacedStep_of_ok _ hstep]
      show (if p there = true then _ else _) = _
      rw [hlast hresult there hthere, if_pos rfl]
      show (conclude (.ok ()) (session.onto host')).map _ = _
      rw [conclude_of_running _ (session.onto host') hrunning hgrid]
      rfl
    · rw [hmin]
      exact hthere
    · rw [hmin, hsuccesses, ← hasked, ← hthere]
      exact List.map_append
    · rw [if_neg (Nat.lt_irrefl _), hresult]

/-- Calls after the last step do nothing. -/
theorem pacedStep_of_ge {j : Nat} (hj : k ≤ j) {run : PacedRun β (List (Processor β))}
    (htracks : run.Tracks cpu plain k j) (session : ClockSession τ) :
    pacedStep (asking p) run session = some (run, session) ∧ run.Tracks cpu plain k (j + 1) := by
  obtain ⟨here, asked, outcome⟩ := run
  obtain ⟨hplace, hasked, houtcome⟩ := htracks
  rw [if_neg (Nat.not_lt.mpr hj)] at houtcome
  obtain rfl : outcome = some (cpu.afterSteps plain k).1 := houtcome
  have hmin : min (j + 1) k = min j k := by omega
  refine ⟨pacedStep_of_concluded _ _, ?_, ?_, ?_⟩
  · rw [hmin]
    exact hplace
  · rw [hmin]
    exact hasked
  · rw [if_neg (by omega)]

/-- **The handler stops the clock with the last step.** -/
theorem stopsAt_pacedStep (hends : EndsAt p cpu plain k) :
    Clock.StopsAt (τ := τ) (pacedStep (asking p)) k plain.journal.threshold
      (PacedRun.Tracks cpu plain k) := by
  intro j run session htracks hstanding hthreshold
  rcases Nat.lt_trichotomy (j + 1) k with hj | hj | hj
  · obtain ⟨run', host', hcall, htracks', hkeeps⟩ := pacedStep_of_lt hends hj htracks hthreshold
    have hrunning := hstanding.running (Nat.lt_of_succ_lt hj)
    exact ⟨run', session.onto host', hcall, htracks',
      ⟨fun _ => hrunning, fun h => absurd h (Nat.not_le.mpr hj)⟩,
      ClockSession.situation_onto hkeeps⟩
  · obtain ⟨hrunning, grid, hgrid⟩ := hstanding.running (by omega)
    obtain ⟨run', host', hcall, htracks', hkeeps⟩ :=
      pacedStep_of_eq hends hj htracks hthreshold hrunning hgrid
    exact ⟨run', (session.onto host').stopped, hcall, htracks',
      ⟨fun h => absurd h (Nat.not_lt.mpr (Nat.le_of_eq hj.symm)), fun _ => rfl⟩,
      (session.onto host').situation_stopped.trans (ClockSession.situation_onto hkeeps)⟩
  · obtain ⟨hcall, htracks'⟩ := pacedStep_of_ge (Nat.le_of_lt_succ hj) htracks session
    have hstopped := hstanding.stopped (Nat.le_of_lt_succ hj)
    exact ⟨run, session, hcall, htracks', ⟨fun h => absurd h (by omega), fun _ => hstopped⟩, rfl⟩

/-! ## The execution -/

/-- **A paced execution makes the steps of an unpaced one.** -/
theorem paceUntil_eq_steps (hends : EndsAt p cpu plain k) (session : ClockSession τ)
    (hkeeps : plain.journal.threshold = session.host.journal.threshold)
    (hstopped : session.clock.running = false) (hidle : session.clock.inFrame = false)
    (limit : Nat) (hlimit : session.clock.pace.framesFor k ≤ limit) :
    ∃ (cpu' : Processor β) (asked : List (Processor β)) (session' : ClockSession τ),
      paceUntil limit (asking p) cpu [] session =
        some (((cpu.afterSteps plain k).1, cpu', asked), session') ∧
      cpu'.untimed = (cpu.afterSteps plain k).2.untimed ∧
      asked.map untimed = cpu.successes plain k ∧
      session'.clock.running = false ∧ session'.clock.inFrame = false ∧
      session'.clock.record.frames =
        session.clock.record.frames + session.clock.pace.framesFor k := by
  obtain ⟨marked, host', hmark, ⟨begun, hmarked⟩, hthreshold⟩ := cpu.run_markBegun session.host
  have hstart : (⟨marked, [], none⟩ : PacedRun β (List (Processor β))).Tracks cpu plain k 0 := by
    refine ⟨?_, ?_, (if_pos hends.pos).symm⟩
    · rw [Nat.zero_min, afterSteps_zero, hmarked]
      rfl
    · rw [Nat.zero_min]
      rfl
  obtain ⟨run', session', hrun, ⟨hplace, hasked, houtcome⟩, hrunning, hinFrame, hframes, -⟩ :=
    Clock.run_of_stopsAt (stopsAt_pacedStep hends) hends.pos _ (session.onto host') hstart
      hstopped hidle (hthreshold.trans hkeeps.symm) hlimit
  have hfit := (session.onto host').clock.pace.le_framesFor_mul k
  rw [Nat.min_eq_right hfit] at hplace hasked
  rw [if_neg (Nat.not_lt.mpr hfit)] at houtcome
  refine ⟨run'.cpu, run'.memo, session', ?_, hplace, hasked, hrunning, hinFrame, hframes⟩
  rw [paceUntil_eq _ _ hmark, hrun]
  show some ((run'.outcome.getD (.ok ()), run'.cpu, run'.memo), session') = _
  rw [houtcome]
  rfl

/-! ## A program that ends between two frames -/

/-- An instruction that does nothing. -/
def idling : Instruction where
  opcode := 0xEA
  mnemonic := "NOP"
  mode := .implied
  cycles := 2
  operation := .nop
  size := 1

/-- Two instructions and an undefined opcode. -/
def shortProgram : Processor Memory where
  registers := {}
  bus := ⟨#[0xEA, 0xEA, 0x00], by decide, by decide⟩
  instructionSet := InstructionSet.empty.insert idling (by decide)

/-- A new clock of two calls a frame. -/
def slowClock : ClockSession SimulatedTime where
  clock := { pace := ⟨2, 1, by decide, by decide⟩ }
  host := ⟨{}, {}⟩

theorem shortProgram_endsAt : EndsAt (fun _ => false) shortProgram slowClock.host 3 := by
  refine ⟨by decide, fun i hpos hlt => ⟨?_, fun _ _ => rfl⟩, fun h => ?_⟩
  · obtain rfl | rfl : i = 1 ∨ i = 2 := by omega
    · rfl
    · rfl
  · cases h

theorem paceUntil_shortProgram :
    ∃ (cpu' : Processor Memory) (asked : List (Processor Memory))
      (session' : ClockSession SimulatedTime),
      paceUntil 2 (asking fun _ => false) shortProgram [] slowClock =
        some ((.error (.undefinedOpcode 0 2 ⟨{ pc := 2 }, 4, 2, [0xEA, 0xEA, 0x00]⟩), cpu', asked),
          session') ∧
      cpu'.halted = true ∧ asked.length = 2 ∧ session'.clock.running = false ∧
      session'.clock.record.frames = 2 := by
  obtain ⟨cpu', asked, session', hpace, hcpu, hasked, hrunning, -, hframes⟩ :=
    paceUntil_eq_steps shortProgram_endsAt slowClock rfl rfl rfl 2 (by decide)
  have hhalted : cpu'.untimed.halted = true := by rw [hcpu]; rfl
  have hlength : (asked.map untimed).length = 2 := by rw [hasked]; rfl
  exact ⟨cpu', asked, session', hpace, hhalted, List.length_map untimed ▸ hlength, hrunning,
    hframes⟩

end Processor

end Mos6502

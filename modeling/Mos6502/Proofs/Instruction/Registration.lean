import Mos6502.Instruction.Standard
import Mos6502.Proofs.Instruction.Table

/-!
# Registrations in a row

What becomes of a list of definitions that are registered one after another on an instruction set
that goes on being used after errors.

**One call** (`decided_call`, `toList_call`). A definition is accepted if its operation allows its
mode and its opcode was not accepted before. Otherwise the call fails and changes nothing; the mode
is looked at first.

**Any run** (`firstAcceptedWins_of_perm`). Every call is decided by the definitions accepted before
it, and the instruction set in the end is the table of all that were accepted. The run may begin
with any instruction set, whose definitions count as accepted.

**Main result** (`first_accepted_wins`). So it is from the empty instruction set and from the
standard one, which is itself the outcome of a run (`registerEach_standardInstructions`).
-/

namespace Mos6502

namespace InstructionSet

variable {instrs : InstructionSet} {d : Instruction}

/-! ## What is accepted -/

/-- The definitions of a list that were accepted, given what became of each. -/
def accepted (definitions : List Instruction) (results : List (Except SetupError Unit)) :
    List Instruction :=
  (definitions.zip results).filterMap fun (d, result) => if result.isOk then some d else none

theorem accepted_append {definitions rest : List Instruction}
    {results others : List (Except SetupError Unit)} (h : results.length = definitions.length) :
    accepted (definitions ++ rest) (results ++ others) =
      accepted definitions results ++ accepted rest others := by
  unfold accepted
  rw [List.zip_append h.symm, List.filterMap_append]

theorem accepted_map_ok (definitions : List Instruction) :
    accepted definitions (definitions.map fun _ => .ok ()) = definitions := by
  induction definitions with
  | nil => rfl
  | cons d rest ih => exact congrArg (d :: ·) ih

theorem length_accepted {definitions : List Instruction}
    {results : List (Except SetupError Unit)} (h : results.length = definitions.length) :
    (accepted definitions results).length = results.countP Except.isOk := by
  induction definitions generalizing results with
  | nil =>
    obtain rfl := List.eq_nil_of_length_eq_zero h
    rfl
  | cons d rest ih =>
    cases results with
    | nil => cases h
    | cons result results =>
      have hrest := ih (Nat.succ.inj h)
      cases result with
      | ok _ =>
        rw [List.countP_cons_of_pos rfl, ← hrest]
        rfl
      | error _ =>
        rw [List.countP_cons_of_neg Bool.false_ne_true, ← hrest]
        rfl

/-- What becomes of a definition, given those accepted before it. -/
structure Decided (known : List Instruction) (d : Instruction) (result : Except SetupError Unit) :
    Prop where
  ok_iff : result = .ok () ↔ d.operation.allows d.mode ∧ ∀ e ∈ known, e.opcode ≠ d.opcode
  /-- An unsupported mode is reported, whether or not the opcode is taken. -/
  unsupported : ¬d.operation.allows d.mode →
    result = .error (.unsupportedMode d.opcode d.mnemonic d.mode)
  /-- Otherwise the first accepted definition of the opcode is reported. -/
  duplicate (e : Instruction) : d.operation.allows d.mode →
    known.find? (fun e => e.opcode = d.opcode) = some e →
      result = .error (.duplicateOpcode d.opcode e.text)

/-! ## One call -/

/-- What becomes of one definition, and the instruction set afterwards. -/
def call (instrs : InstructionSet) (d : Instruction) : Except SetupError Unit × InstructionSet :=
  match instrs.register d with
  | .ok next => (.ok (), next)
  | .error error => (.error error, instrs)

theorem call_of_unsupported (h : ¬d.operation.allows d.mode) :
    instrs.call d = (.error (.unsupportedMode d.opcode d.mnemonic d.mode), instrs) := by
  simp [call, register, h]

theorem call_of_taken (allowed : d.operation.allows d.mode) {e : Instruction}
    (h : instrs.get d.opcode = some e) :
    instrs.call d = (.error (.duplicateOpcode d.opcode e.text), instrs) := by
  simp [call, register, allowed, h]

theorem call_of_free (allowed : d.operation.allows d.mode) (h : instrs.get d.opcode = none) :
    instrs.call d = (.ok (), instrs.insert d allowed) := by
  simp [call, register, allowed, h]

/-- **A failed call changes nothing.** -/
theorem call_of_error {error : SetupError} (h : (instrs.call d).1 = .error error) :
    (instrs.call d).2 = instrs := by
  unfold call at h ⊢
  cases hregister : instrs.register d with
  | ok next => rw [hregister] at h; cases h
  | error _ => rfl

/-- **A call is decided** by the definitions that are there. -/
theorem decided_call {known : List Instruction} (h : instrs.toList.Perm known)
    (d : Instruction) : Decided known d (instrs.call d).1 := by
  by_cases allowed : d.operation.allows d.mode
  · cases hget : instrs.get d.opcode with
    | none =>
      rw [call_of_free allowed hget]
      rw [get_eq_find? h, List.find?_eq_none] at hget
      refine ⟨⟨fun _ => ⟨allowed, fun e he => by simpa using hget e he⟩, fun _ => rfl⟩,
        fun hnot => absurd allowed hnot, fun e _ hfind => ?_⟩
      have he : e.opcode = d.opcode := by simpa using List.find?_some hfind
      exact absurd (decide_eq_true he) (hget e (List.mem_of_find?_eq_some hfind))
    | some e =>
      rw [call_of_taken allowed hget]
      have hknown : e ∈ known := h.subset (mem_toList.mpr ((opcode_of_get hget).symm ▸ hget))
      refine ⟨⟨nofun, fun hfree => absurd (opcode_of_get hget) (hfree.2 e hknown)⟩,
        fun hnot => absurd allowed hnot, fun e' _ hfind => ?_⟩
      rw [get_eq_find? h, hfind] at hget
      rw [Option.some.inj hget]
  · rw [call_of_unsupported allowed]
    exact ⟨⟨nofun, fun hfree => absurd hfree.1 allowed⟩, fun _ => rfl,
      fun _ hallowed => absurd hallowed allowed⟩

theorem toList_call (instrs : InstructionSet) (d : Instruction) :
    (instrs.call d).2.toList.Perm (instrs.toList ++ accepted [d] [(instrs.call d).1]) := by
  by_cases allowed : d.operation.allows d.mode
  · cases hget : instrs.get d.opcode with
    | none =>
      rw [call_of_free allowed hget]
      exact toList_insert allowed hget
    | some e =>
      rw [call_of_taken allowed hget]
      exact .of_eq (List.append_nil _).symm
  · rw [call_of_unsupported allowed]
    exact .of_eq (List.append_nil _).symm

/-! ## Calls in a row -/

theorem registerEach_cons (instrs : InstructionSet) (d : Instruction) (rest : List Instruction) :
    instrs.registerEach (d :: rest) =
      ((instrs.call d).1 :: ((instrs.call d).2.registerEach rest).1,
        ((instrs.call d).2.registerEach rest).2) := by
  unfold call
  conv => lhs; unfold registerEach
  cases instrs.register d with
  | ok next => rfl
  | error error => rfl

theorem registerEach_append (instrs : InstructionSet) (before after : List Instruction) :
    instrs.registerEach (before ++ after) =
      ((instrs.registerEach before).1 ++
          ((instrs.registerEach before).2.registerEach after).1,
        ((instrs.registerEach before).2.registerEach after).2) := by
  induction before generalizing instrs with
  | nil => rfl
  | cons d rest ih => rw [List.cons_append, registerEach_cons, registerEach_cons, ih]; rfl

theorem length_registerEach (instrs : InstructionSet) (definitions : List Instruction) :
    (instrs.registerEach definitions).1.length = definitions.length := by
  induction definitions generalizing instrs with
  | nil => rfl
  | cons d rest ih => rw [registerEach_cons, List.length_cons, ih, List.length_cons]

/-- The definitions in the end are those of the beginning and those accepted on the way. -/
theorem toList_registerEach (start : InstructionSet) (definitions : List Instruction) :
    (start.registerEach definitions).2.toList.Perm
      (start.toList ++ accepted definitions (start.registerEach definitions).1) := by
  induction definitions generalizing start with
  | nil => exact .of_eq (List.append_nil _).symm
  | cons d rest ih =>
    have hsplit : accepted (d :: rest) (start.registerEach (d :: rest)).1 =
        accepted [d] [(start.call d).1] ++
          accepted rest ((start.call d).2.registerEach rest).1 := by
      rw [registerEach_cons]
      exact @accepted_append [d] rest [(start.call d).1] _ rfl
    rw [hsplit, registerEach_cons, ← List.append_assoc]
    exact (ih (start.call d).2).trans ((toList_call start d).append_right _)

/-- What `registerAll` accepts is accepted call by call. -/
theorem registerEach_of_registerAll {start last : InstructionSet} {definitions : List Instruction}
    (h : start.registerAll definitions = .ok last) :
    start.registerEach definitions = (definitions.map fun _ => .ok (), last) := by
  induction definitions generalizing start with
  | nil =>
    obtain rfl : start = last := Except.ok.inj h
    rfl
  | cons d rest ih =>
    rw [registerAll, List.foldlM_cons] at h
    cases hregister : start.register d with
    | error error => rw [hregister] at h; cases h
    | ok next =>
      rw [hregister] at h
      rw [registerEach_cons, call, hregister, ih h]
      rfl

/-- **The standard instructions** are accepted one after another. -/
theorem registerEach_standardInstructions :
    empty.registerEach standardInstructions =
      (standardInstructions.map fun _ => .ok (), standard) :=
  registerEach_of_registerAll registerAll_standardInstructions

theorem toList_standard : standard.toList.Perm standardInstructions := by
  have hrun := toList_registerEach empty standardInstructions
  rw [registerEach_standardInstructions, accepted_map_ok, toList_empty] at hrun
  exact hrun

/-- The `i`-th call is made on what the calls before it have left. -/
theorem registerEach_getElem? (start : InstructionSet) {definitions : List Instruction} {i : Nat}
    (h : definitions[i]? = some d) :
    (start.registerEach definitions).1.take i = (start.registerEach (definitions.take i)).1 ∧
      (start.registerEach definitions).1[i]? =
        some ((start.registerEach (definitions.take i)).2.call d).1 ∧
      (start.registerEach (definitions.take (i + 1))).2 =
        ((start.registerEach (definitions.take i)).2.call d).2 := by
  obtain ⟨hi, hd⟩ := List.getElem?_eq_some_iff.mp h
  have hlength : (start.registerEach (definitions.take i)).1.length = i := by
    rw [length_registerEach, List.length_take, Nat.min_eq_left (Nat.le_of_lt hi)]
  have hsplit : definitions = definitions.take i ++ d :: definitions.drop (i + 1) := by
    rw [← hd, ← List.drop_eq_getElem_cons hi, List.take_append_drop]
  have hresults := congrArg (fun l => (start.registerEach l).1) hsplit
  simp only [registerEach_append, registerEach_cons] at hresults
  refine ⟨?_, ?_, ?_⟩
  · rw [hresults, List.take_left' hlength]
  · rw [hresults, List.getElem?_append_right (Nat.le_of_eq hlength), hlength, Nat.sub_self]
    rfl
  · rw [List.take_add_one, h, Option.toList_some, registerEach_append, registerEach_cons]
    rfl

/-! ## The first accepted definition wins -/

/-- The first accepted definition of each opcode wins, over a run that begins with `start`, where
the definitions `earlier` were accepted, gives `results` and ends with `last`. -/
structure FirstAcceptedWins (earlier : List Instruction) (start : InstructionSet)
    (definitions : List Instruction) (results : List (Except SetupError Unit))
    (last : InstructionSet) : Prop where
  length : results.length = definitions.length
  decided (i : Nat) (d : Instruction) (result : Except SetupError Unit) :
    definitions[i]? = some d → results[i]? = some result →
      Decided (earlier ++ accepted (definitions.take i) (results.take i)) d result
  /-- A failed call leaves everything as the calls before it have left it. -/
  unchanged (i : Nat) (error : SetupError) : results[i]? = some (.error error) →
    (start.registerEach (definitions.take (i + 1))).2 =
      (start.registerEach (definitions.take i)).2
  tabulates : last.Tabulates (earlier ++ accepted definitions results)
  size : last.size = earlier.length + results.countP Except.isOk
  isEmpty : last.isEmpty = true ↔ earlier.length + results.countP Except.isOk = 0

theorem firstAcceptedWins_of_perm {earlier : List Instruction} {start : InstructionSet}
    (h : start.toList.Perm earlier) (definitions : List Instruction) :
    FirstAcceptedWins earlier start definitions (start.registerEach definitions).1
      (start.registerEach definitions).2 := by
  have hknown : ∀ list, (start.registerEach list).2.toList.Perm
      (earlier ++ accepted list (start.registerEach list).1) := fun list =>
    (toList_registerEach start list).trans (h.append_right _)
  have hlength := length_registerEach start definitions
  have htable := tabulates_of_perm (hknown definitions)
  have hsize : (start.registerEach definitions).2.size =
      earlier.length + (start.registerEach definitions).1.countP Except.isOk := by
    rw [htable.size, List.length_append, length_accepted hlength]
  refine ⟨hlength, ?_, ?_, htable, hsize, ?_⟩
  · intro i d result hd hresult
    obtain ⟨htake, hcall, -⟩ := registerEach_getElem? start hd
    obtain rfl : ((start.registerEach (definitions.take i)).2.call d).1 = result :=
      Option.some.inj (hcall.symm.trans hresult)
    rw [htake]
    exact decided_call (hknown (definitions.take i)) d
  · intro i error hresult
    obtain ⟨hi, -⟩ := List.getElem?_eq_some_iff.mp hresult
    obtain ⟨-, hcall, hnext⟩ :=
      registerEach_getElem? start (List.getElem?_eq_getElem (hlength ▸ hi))
    rw [hnext]
    exact call_of_error (Option.some.inj (hcall.symm.trans hresult))
  · rw [isEmpty, hsize, beq_iff_eq]

/-- **The first accepted definition wins**, whatever is registered on the empty or on the standard
instruction set. -/
theorem first_accepted_wins (definitions : List Instruction) :
    FirstAcceptedWins [] empty definitions (empty.registerEach definitions).1
        (empty.registerEach definitions).2 ∧
      FirstAcceptedWins standardInstructions standard definitions
        (standard.registerEach definitions).1 (standard.registerEach definitions).2 :=
  ⟨firstAcceptedWins_of_perm (.of_eq toList_empty) definitions,
    firstAcceptedWins_of_perm toList_standard definitions⟩

end InstructionSet

end Mos6502

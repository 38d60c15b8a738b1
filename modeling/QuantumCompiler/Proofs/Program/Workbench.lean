import QuantumCompiler.Proofs.Program.Remap
import QuantumCompiler.Proofs.Program.RoundTrip

/-!
# Instructions and programs at work

A `Workbench` holds the instructions and programs that a user has made. A `Call` makes
another one or changes one in place, and a run is any sequence of calls, those that are
refused included. There are checked constructors, constructors from single qubits that
check nothing, copies, new operands, and remapping, which can stop half way through a
program.

Back ends and the accessors of the angle and the weight take for granted that built-in
instructions are well-formed. `wellFormed_act` shows it for one call, `wellFormed_run` for
a run; `run_builtin_wellFormed` draws the conclusions.
-/

namespace QuantumCompiler

/-- The kinds that can be made from a qubit alone. -/
def Kind.bare : List Kind :=
  [.h, .x, .y, .z, .s, .t, .measure]

/-- The kinds that can be made from a qubit and an angle or a weight. -/
def Kind.weighted : List Kind :=
  [.rx, .ry, .rz, .bias]

/-- The kinds whose angle or weight can be asked for. -/
def Kind.parametric : List Kind :=
  [.rx, .ry, .rz, .bias, .coupler]

/-- The instruction after its operands are set, which is as it was if that fails. -/
def Instruction.afterSetBits (i : Instruction) (bits : List Nat) : Instruction :=
  match i.setBits bits with
  | .ok i' => i'
  | .error _ => i

-- ---------------------------------------------------------------------------
-- Calls
-- ---------------------------------------------------------------------------

/-- What can be done to instructions and programs. Those on the workbench are given by
their positions. -/
inductive Call where
  | new (kind : Kind) (bits : List Nat)
  | withParams (kind : Kind) (bits : List Nat) (params : List Float)
  | create (kind : Kind) (bits : List Nat) (params : List Float)
  | createNamed (name : String) (bits : List Nat) (params : List Float)
  | on (kind : Kind) (hkind : kind ∈ Kind.bare) (qubit : Nat)
  | onWith (kind : Kind) (hkind : kind ∈ Kind.weighted) (qubit : Nat) (param : Float)
  | between (a b : Nat) (weight : Float)
  | free (name : String) (bits : List Nat) (params : List Float)
  | clone (index : Nat)
  | setBits (index : Nat) (bits : List Nat)
  | start (register : String)
  | parse (register source : String)
  | push (program index : Nat)
  | cloneOut (program index : Nat)
  | cloneProgram (program : Nat)
  | remap (program : Nat) (f : Nat → Nat)

/-- Instructions and programs at hand. -/
structure Workbench where
  /-- The instructions outside programs. -/
  instructions : List Instruction := []
  /-- The programs. -/
  programs : List Program := []

namespace Workbench

/-- Put an instruction down, if there is one. -/
def hold (w : Workbench) (made : Option Instruction) : Workbench :=
  { w with instructions := w.instructions ++ made.toList }

/-- Put a program down, if there is one. -/
def holdProgram (w : Workbench) (made : Option Program) : Workbench :=
  { w with programs := w.programs ++ made.toList }

/-- The workbench after a call. -/
def act (w : Workbench) : Call → Workbench
  | .new kind bits => w.hold (kind.new bits).toOption
  | .withParams kind bits params => w.hold (kind.withParams bits params).toOption
  | .create kind bits params => w.hold (kind.create bits params).toOption
  | .createNamed name bits params =>
    w.hold (InstructionRegistry.builtins.createWithParams name bits params).toOption
  | .on kind _ qubit => w.hold (some (kind.on qubit))
  | .onWith kind _ qubit param => w.hold (some (kind.onWith qubit param))
  | .between a b weight => w.hold (Kind.coupler.between a b weight).toOption
  | .free name bits params => w.hold (some ⟨.free name, bits, params⟩)
  | .clone index => w.hold w.instructions[index]?
  | .setBits index bits =>
    { w with instructions := w.instructions.modify index (·.afterSetBits bits) }
  | .start register => w.holdProgram (some (Program.new register))
  | .parse register source => w.holdProgram (Program.parse .builtins register source).toOption
  | .push program index =>
    match w.instructions[index]? with
    | some i => { w with programs := w.programs.modify program (·.push i) }
    | none => w
  | .cloneOut program index => w.hold (w.programs[program]?.bind (·.instructions[index]?))
  | .cloneProgram program => w.holdProgram w.programs[program]?
  | .remap program f =>
    { w with programs := w.programs.modify program fun p => (p.remap f).1 }

/-- The workbench after calls one after the other, empty at first. -/
def run (calls : List Call) : Workbench :=
  calls.foldl act {}

/-- The instruction is on the workbench or in one of its programs. -/
def Holds (w : Workbench) (i : Instruction) : Prop :=
  i ∈ w.instructions ∨ ∃ p ∈ w.programs, i ∈ p.instructions

/-- Everything on the workbench except operands. -/
def labels (w : Workbench) :
    List (Opcode × List Float) × List (String × List (Opcode × List Float)) :=
  (w.instructions.map Instruction.label,
    w.programs.map fun p => (p.register, p.instructions.map Instruction.label))

end Workbench

-- ---------------------------------------------------------------------------
-- Constructors
-- ---------------------------------------------------------------------------

theorem Kind.shape_of_bare : ∀ kind ∈ bare, kind.arity = 1 ∧ kind.numParams = 0 := by
  decide

theorem Kind.shape_of_weighted : ∀ kind ∈ weighted, kind.arity = 1 ∧ kind.numParams = 1 := by
  decide

theorem Kind.numParams_of_parametric : ∀ kind ∈ parametric, kind.numParams = 1 := by
  decide

theorem Kind.wellFormed_withParams {kind : Kind} {bits : List Nat} {params : List Float}
    {i : Instruction} (h : kind.withParams bits params = .ok i) : i.WellFormed := by
  obtain ⟨hlen, hnodup, hparams, rfl⟩ := withParams_eq_ok_iff.mp h
  exact ⟨hlen, hnodup, hparams⟩

theorem Kind.wellFormed_on {kind : Kind} (hkind : kind ∈ bare) (qubit : Nat) :
    (kind.on qubit).WellFormed := by
  obtain ⟨harity, hparams⟩ := shape_of_bare kind hkind
  exact ⟨harity.symm, List.nodup_singleton qubit, hparams.symm⟩

theorem Kind.wellFormed_onWith {kind : Kind} (hkind : kind ∈ weighted) (qubit : Nat)
    (param : Float) : (kind.onWith qubit param).WellFormed := by
  obtain ⟨harity, hparams⟩ := shape_of_weighted kind hkind
  exact ⟨harity.symm, List.nodup_singleton qubit, hparams.symm⟩

-- ---------------------------------------------------------------------------
-- Changes in place
-- ---------------------------------------------------------------------------

section Modify

variable {α β : Type} {g : α → α}

theorem forall_mem_modify {P : α → Prop} (hg : ∀ a, P a → P (g a)) {l : List α}
    (hl : ∀ a ∈ l, P a) (k : Nat) : ∀ a ∈ l.modify k g, P a := by
  intro a ha
  obtain ⟨j, hj⟩ := List.mem_iff_getElem?.mp ha
  rw [List.getElem?_modify] at hj
  obtain ⟨b, hb, rfl⟩ := Option.map_eq_some_iff.mp hj
  have hPb : P b := hl b (List.mem_of_getElem? hb)
  split
  · exact hg b hPb
  · exact hPb

theorem map_modify_of_eq {view : α → β} (hg : ∀ a, view (g a) = view a) (l : List α) (k : Nat) :
    (l.modify k g).map view = l.map view := by
  apply List.ext_getElem?
  intro j
  rw [List.getElem?_map, List.getElem?_map, List.getElem?_modify]
  cases l[j]? with
  | none => rfl
  | some a =>
    show some (view (if k = j then g a else a)) = some (view a)
    split
    · rw [hg]
    · rfl

end Modify

namespace Instruction

theorem WellFormed.afterSetBits {i : Instruction} (hi : i.WellFormed) (bits : List Nat) :
    (i.afterSetBits bits).WellFormed := by
  unfold Instruction.afterSetBits
  split
  · rename_i i' hset
    exact hi.setBits hset
  · exact hi

theorem label_afterSetBits (i : Instruction) (bits : List Nat) :
    (i.afterSetBits bits).label = i.label := by
  unfold afterSetBits
  split
  · rename_i i' hset
    rw [eq_of_setBits hset]
    rfl
  · rfl

/-- The parameter that is asked for is there. -/
theorem WellFormed.param_eq {i : Instruction} (hi : i.WellFormed) {kind : Kind}
    (hopcode : i.opcode = .builtin kind) (hkind : kind ∈ Kind.parametric) :
    ∃ x, i.params = [x] ∧ i.param? = some x := by
  have hlen : i.params.length = 1 := by
    rw [(wellFormed_iff.mp hi kind hopcode).2.2]
    exact Kind.numParams_of_parametric kind hkind
  obtain ⟨x, hx⟩ := List.length_eq_one_iff.mp hlen
  exact ⟨x, hx, by rw [param?, hx]; rfl⟩

end Instruction

-- ---------------------------------------------------------------------------
-- Runs
-- ---------------------------------------------------------------------------

namespace Workbench

/-- Everything on the workbench is well-formed. -/
structure WellFormed (w : Workbench) : Prop where
  instructions : ∀ i ∈ w.instructions, i.WellFormed
  programs : ∀ p ∈ w.programs, ∀ i ∈ p.instructions, i.WellFormed

namespace WellFormed

variable {w : Workbench}

theorem hold (hw : w.WellFormed) {made : Option Instruction}
    (hmade : ∀ i, made = some i → i.WellFormed) : (w.hold made).WellFormed := by
  refine ⟨List.forall_mem_append.mpr ⟨hw.instructions, ?_⟩, hw.programs⟩
  intro i hi
  exact hmade i (Option.mem_toList.mp hi)

theorem holdOk (hw : w.WellFormed) {made : Except InstructionFault Instruction}
    (hmade : ∀ i, made = .ok i → i.WellFormed) : (w.hold made.toOption).WellFormed := by
  apply hw.hold
  intro i hi
  cases made with
  | error fault => cases hi
  | ok i' => exact hmade i (congrArg Except.ok (Option.some.inj hi))

theorem holdProgram (hw : w.WellFormed) {made : Option Program}
    (hmade : ∀ p, made = some p → ∀ i ∈ p.instructions, i.WellFormed) :
    (w.holdProgram made).WellFormed := by
  refine ⟨hw.instructions, List.forall_mem_append.mpr ⟨hw.programs, ?_⟩⟩
  intro p hp
  exact hmade p (Option.mem_toList.mp hp)

theorem modifyProgram (hw : w.WellFormed) {g : Program → Program}
    (hg : ∀ p : Program, (∀ i ∈ p.instructions, i.WellFormed) →
      ∀ i ∈ (g p).instructions, i.WellFormed) (k : Nat) :
    Workbench.WellFormed { w with programs := w.programs.modify k g } :=
  ⟨hw.instructions, forall_mem_modify hg hw.programs k⟩

theorem parse (hw : w.WellFormed) (register source : String) :
    (w.act (.parse register source)).WellFormed := by
  apply hw.holdProgram
  intro p hp
  cases hparse : Program.parse .builtins register source with
  | error fault =>
    rw [hparse] at hp
    cases hp
  | ok p' =>
    rw [hparse] at hp
    obtain rfl : p' = p := Option.some.inj hp
    intro i hi
    exact ((expressible_of_parse hparse).2.2 i hi).2.1

theorem push (hw : w.WellFormed) (program index : Nat) :
    (w.act (.push program index)).WellFormed := by
  unfold act
  dsimp only
  split
  · rename_i i hi
    apply hw.modifyProgram
    intro p hp
    have hlast : i.WellFormed := hw.instructions i (List.mem_of_getElem? hi)
    exact List.forall_mem_append.mpr ⟨hp, List.forall_mem_singleton.mpr hlast⟩
  · exact hw

end WellFormed

/-- One call keeps everything well-formed. -/
theorem wellFormed_act {w : Workbench} (hw : w.WellFormed) (call : Call) :
    (w.act call).WellFormed := by
  cases call with
  | new kind bits => exact hw.holdOk fun _ => Kind.wellFormed_withParams
  | withParams kind bits params => exact hw.holdOk fun _ => Kind.wellFormed_withParams
  | create kind bits params => exact hw.holdOk fun _ h => (Kind.wellFormed_of_create h).2.2
  | createNamed name bits params =>
    apply hw.holdOk
    intro i h
    obtain ⟨kind, -, hcreate⟩ := InstructionRegistry.createWithParams_builtins_eq_ok_iff.mp h
    exact (Kind.wellFormed_of_create hcreate).2.2
  | on kind hkind qubit =>
    exact hw.hold fun i hi => Option.some.inj hi ▸ Kind.wellFormed_on hkind qubit
  | onWith kind hkind qubit param =>
    exact hw.hold fun i hi => Option.some.inj hi ▸ Kind.wellFormed_onWith hkind qubit param
  | between a b weight => exact hw.holdOk fun _ => Kind.wellFormed_withParams
  | free name bits params =>
    apply hw.hold
    intro i hi
    rw [← Option.some.inj hi]
    trivial
  | clone index => exact hw.hold fun i hi => hw.instructions i (List.mem_of_getElem? hi)
  | setBits index bits =>
    exact ⟨forall_mem_modify (fun i hi => hi.afterSetBits bits) hw.instructions index, hw.programs⟩
  | start register =>
    apply hw.holdProgram
    intro p hp
    rw [← Option.some.inj hp]
    exact List.forall_mem_nil _
  | parse register source => exact hw.parse register source
  | push program index => exact hw.push program index
  | cloneOut program index =>
    apply hw.hold
    intro i hi
    obtain ⟨p, hp, hget⟩ := Option.bind_eq_some_iff.mp hi
    exact hw.programs p (List.mem_of_getElem? hp) i (List.mem_of_getElem? hget)
  | cloneProgram program =>
    exact hw.holdProgram fun p hp => hw.programs p (List.mem_of_getElem? hp)
  | remap program f => exact hw.modifyProgram (fun p => Program.wellFormed_remapAll f) program

theorem wellFormed_run (calls : List Call) : (run calls).WellFormed := by
  -- the calls are performed from the left, so the workbench they start from is generalized
  have hfold : ∀ w : Workbench, w.WellFormed → (calls.foldl act w).WellFormed := by
    induction calls with
    | nil => exact fun w hw => hw
    | cons call calls ih => exact fun w hw => ih (w.act call) (wellFormed_act hw call)
  exact hfold {} ⟨List.forall_mem_nil _, List.forall_mem_nil _⟩

theorem WellFormed.of_holds {w : Workbench} (hw : w.WellFormed) {i : Instruction}
    (hi : w.Holds i) : i.WellFormed := by
  rcases hi with hi | ⟨p, hp, hi⟩
  · exact hw.instructions i hi
  · exact hw.programs p hp i hi

-- ---------------------------------------------------------------------------
-- What setting operands and remapping change
-- ---------------------------------------------------------------------------

theorem act_setBits_of_ok {w : Workbench} {k : Nat} {i i' : Instruction} {bits : List Nat}
    (hi : w.instructions[k]? = some i) (hset : i.setBits bits = .ok i') :
    w.act (.setBits k bits) = { w with instructions := w.instructions.set k i' } := by
  have hafter : i.afterSetBits bits = i' := by rw [Instruction.afterSetBits, hset]
  show { w with instructions := w.instructions.modify k (·.afterSetBits bits) } = _
  rw [List.modify_eq_set_getElem?, hi]
  show { w with instructions := w.instructions.set k (i.afterSetBits bits) } = _
  rw [hafter]

theorem act_setBits_of_error {w : Workbench} {k : Nat} {i : Instruction} {bits : List Nat}
    {fault : InstructionFault} (hi : w.instructions[k]? = some i)
    (hset : i.setBits bits = .error fault) : w.act (.setBits k bits) = w := by
  have hafter : i.afterSetBits bits = i := by rw [Instruction.afterSetBits, hset]
  obtain ⟨hk, hget⟩ := List.getElem?_eq_some_iff.mp hi
  show { w with instructions := w.instructions.modify k (·.afterSetBits bits) } = _
  rw [List.modify_eq_set_getElem?, hi]
  show { w with instructions := w.instructions.set k (i.afterSetBits bits) } = _
  rw [hafter, ← hget, List.set_getElem_self]

theorem labels_setBits (w : Workbench) (k : Nat) (bits : List Nat) :
    (w.act (.setBits k bits)).labels = w.labels := by
  have hmap := map_modify_of_eq (fun i : Instruction => i.label_afterSetBits bits) w.instructions k
  exact Prod.ext hmap rfl

theorem labels_remap (w : Workbench) (k : Nat) (f : Nat → Nat) :
    (w.act (.remap k f)).labels = w.labels := by
  refine Prod.ext rfl (map_modify_of_eq ?_ w.programs k)
  intro p
  exact Prod.ext rfl (Program.map_label_remapAll f p.instructions)

/-- **Built-in instructions are always well-formed.** After any sequence of calls, refused
ones included, every built-in instruction outside or inside a program has as many operands
and parameters as its kind demands, and its operands are distinct. It accepts new operands
exactly if they are as many and distinct. So the angle or the weight is there wherever it
can be asked for. Setting operands changes those of the one instruction or, if it fails,
nothing; neither it nor remapping changes an operation or a parameter. -/
theorem run_builtin_wellFormed (calls : List Call) :
    (∀ i, (run calls).Holds i → ∀ kind, i.opcode = .builtin kind →
      (i.bits.length = kind.arity ∧ i.bits.Nodup ∧ i.params.length = kind.numParams) ∧
      (∀ bits, (∃ i', i.setBits bits = .ok i') ↔ bits.length = kind.arity ∧ bits.Nodup) ∧
      (kind ∈ Kind.parametric → ∃ x, i.params = [x] ∧ i.param? = some x)) ∧
    (∀ k i bits, (run calls).instructions[k]? = some i →
      (∀ i', i.setBits bits = .ok i' →
        i'.bits = bits ∧ i'.name = i.name ∧ i'.params = i.params ∧
          (run calls).act (.setBits k bits) =
            { run calls with instructions := (run calls).instructions.set k i' }) ∧
      (∀ fault, i.setBits bits = .error fault →
        (run calls).act (.setBits k bits) = run calls)) ∧
    (∀ k bits, ((run calls).act (.setBits k bits)).labels = (run calls).labels) ∧
    (∀ k f, ((run calls).act (.remap k f)).labels = (run calls).labels) := by
  have hw := wellFormed_run calls
  refine ⟨?_, ?_, labels_setBits _, labels_remap _⟩
  · intro i hi kind hkind
    have hwell := hw.of_holds hi
    refine ⟨Instruction.wellFormed_iff.mp hwell kind hkind, ?_, hwell.param_eq hkind⟩
    intro bits
    constructor
    · rintro ⟨i', hset⟩
      obtain ⟨hlen, hnodup, -⟩ := (Instruction.setBits_eq_ok_iff hkind).mp hset
      exact ⟨hlen, hnodup⟩
    · rintro ⟨hlen, hnodup⟩
      exact ⟨_, (Instruction.setBits_eq_ok_iff hkind).mpr ⟨hlen, hnodup, rfl⟩⟩
  · intro k i bits hi
    refine ⟨?_, fun fault => act_setBits_of_error hi⟩
    intro i' hset
    have hact := act_setBits_of_ok hi hset
    have heq := Instruction.eq_of_setBits hset
    subst heq
    exact ⟨rfl, rfl, rfl, hact⟩

/-- A program whose remapping fails at its second instruction, and a copy that refuses a
list of operands that is too short. -/
def sampleCalls : List Call :=
  [.onWith .rz (by decide) 3 0.5, .new .cnot [0, 1], .start "q", .push 0 0, .push 0 1,
    .remap 0 fun _ => 7, .clone 1, .setBits 2 [5]]

theorem run_builtin_wellFormed_sample :
    (run sampleCalls).programs =
        [⟨"q", [⟨.builtin .rz, [7], [0.5]⟩, ⟨.builtin .cnot, [0, 1], []⟩]⟩] ∧
      (run sampleCalls).Holds ⟨.builtin .rz, [7], [0.5]⟩ ∧
      (∃ x, [(0.5 : Float)] = [x] ∧
        (⟨.builtin .rz, [7], [0.5]⟩ : Instruction).param? = some x) ∧
      (run sampleCalls).instructions[2]? = some ⟨.builtin .cnot, [0, 1], []⟩ ∧
      (⟨.builtin .cnot, [0, 1], []⟩ : Instruction).setBits [5] =
        .error (.invalidArity "CNOT" 2 1) ∧
      (run sampleCalls).act (.setBits 2 [5]) = run sampleCalls := by
  have hprograms : (run sampleCalls).programs =
      [⟨"q", [⟨.builtin .rz, [7], [0.5]⟩, ⟨.builtin .cnot, [0, 1], []⟩]⟩] := rfl
  have hholds : (run sampleCalls).Holds ⟨.builtin .rz, [7], [0.5]⟩ :=
    Or.inr ⟨_, List.mem_cons_self, List.mem_cons_self⟩
  have hcopy : (run sampleCalls).instructions[2]? = some ⟨.builtin .cnot, [0, 1], []⟩ := rfl
  obtain ⟨hwell, hset, -, -⟩ := run_builtin_wellFormed sampleCalls
  exact ⟨hprograms, hholds, (hwell _ hholds .rz rfl).2.2 (by decide), hcopy, rfl,
    (hset 2 _ [5] hcopy).2 _ rfl⟩

end Workbench

end QuantumCompiler

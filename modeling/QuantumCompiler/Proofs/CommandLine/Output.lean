import QuantumCompiler.CommandLine.Run
import QuantumCompiler.Proofs.CommandLine.Mark
import QuantumCompiler.Proofs.Json.ReadBack

/-!
# The output of a compilation, as lines and as JSON

Arguments that make a request to compile come in pairs, with the mark that asks for JSON and
without it. The two requests are the same but for the mark, and the mark plays no part before the
output is written. So the two runs fail together, or they write the same compiled program to the
same place, one as its lines and the other as JSON that reads back as the program.

* `parse_marked_unmarked` — the two requests of a pair;
* `exists_marked_unmarked` — every request to compile is one of a pair;
* `Job.run_eq` — what the output has to do with the rest of a job.
-/

namespace QuantumCompiler.CommandLine

-- ---------------------------------------------------------------------------
-- Requests
-- ---------------------------------------------------------------------------

/-- Arguments that make a request to compile. -/
def Compiles (fallback : Option String) (arguments : List String) : Prop :=
  ∃ job config logLevel, Request.parse fallback arguments = .ok ⟨.compile job, config, logLevel⟩

variable {fallback : Option String} {outer inner : Given}

theorem simpleCommand?_ne_compile {name : String} {command : Command}
    (h : simpleCommand? name = some command) (job : Job) : command ≠ .compile job := by
  rintro rfl
  unfold simpleCommand? at h
  split at h <;> cases h

/-- Only `compile` makes a request to compile, from what stands after it. -/
theorem readCommand_eq_ok_compile_iff {name : String} {arguments : List String} {job : Job} :
    readCommand name arguments = .ok (inner, .compile job) ↔
      name = "compile" ∧ (∃ rest, readPlace .afterCompile {} arguments = .ok (inner, rest)) ∧
        inner.job = .ok job := by
  constructor
  · intro h
    unfold readCommand at h
    split_ifs at h with hcompile hhelp
    · obtain ⟨⟨g, rest⟩, hplace, h⟩ := bind_eq_ok_iff.mp h
      obtain ⟨job', hjob, h⟩ := bind_eq_ok_iff.mp h
      cases h
      exact ⟨by simpa using hcompile, ⟨rest, hplace⟩, hjob⟩
    · split at h
      · cases h
      · split_ifs at h
      · cases h
    · split at h
      · cases h
      · rename_i command hcommand
        obtain ⟨⟨g, rest⟩, -, h⟩ := bind_eq_ok_iff.mp h
        cases h
        exact absurd rfl (simpleCommand?_ne_compile hcommand job)
  · rintro ⟨rfl, ⟨rest, hplace⟩, hjob⟩
    unfold readCommand
    rw [if_pos (by decide), hplace]
    show (inner.job >>= fun job => pure (inner, Command.compile job)) = _
    rw [hjob]
    rfl

/-- The settings that a request is made under, from the options of both places. -/
def Settled (fallback : Option String) (outer inner : Given) (config logLevel : Option String) :
    Prop :=
  (fallback = some "" → outer.has .config = true ∧ inner.has .config = true) ∧
  config = (inner.value? .config <|> outer.value? .config <|> fallback) ∧
  logLevel = (inner.value? .logLevel <|> outer.value? .logLevel)

/-- A request to compile is made of what stands before `compile` and after it. -/
theorem parse_eq_ok_compile_iff {arguments : List String} {job : Job}
    {config logLevel : Option String} :
    Request.parse fallback arguments = .ok ⟨.compile job, config, logLevel⟩ ↔
      ∃ outer inner others rest,
        readPlace .beforeCommand {} arguments = .ok (outer, "compile" :: others) ∧
        readPlace .afterCompile {} others = .ok (inner, rest) ∧ inner.job = .ok job ∧
        Settled fallback outer inner config logLevel := by
  unfold Request.parse
  rw [bind_eq_ok_iff]
  constructor
  · rintro ⟨⟨outer, others⟩, houter, h⟩
    cases others with
    | nil => cases h
    | cons name others =>
      obtain ⟨⟨inner, command⟩, hcommand, h⟩ := bind_eq_ok_iff.mp h
      dsimp only at h
      split_ifs at h with hempty
      · cases h
      · cases h
        obtain ⟨rfl, ⟨rest, hinner⟩, hjob⟩ := readCommand_eq_ok_compile_iff.mp hcommand
        exact ⟨outer, inner, others, rest, houter, hinner, hjob, by simpa using hempty, rfl, rfl⟩
  · rintro ⟨outer, inner, others, rest, houter, hinner, hjob, hempty, rfl, rfl⟩
    refine ⟨_, houter, ?_⟩
    dsimp only
    rw [readCommand_eq_ok_compile_iff.mpr ⟨rfl, ⟨rest, hinner⟩, hjob⟩]
    have hempty : ¬(fallback == some "" && !(outer.has .config && inner.has .config)) = true := by
      simpa using hempty
    exact if_neg hempty

theorem Settled.forget {config logLevel : Option String} :
    Settled fallback outer inner.forget config logLevel ↔
      Settled fallback outer inner config logLevel := by
  simp only [Settled, Given.has_forget (show Flag.config ≠ .json by decide),
    Given.value?_forget (show Flag.config ≠ .json by decide),
    Given.value?_forget (show Flag.logLevel ≠ .json by decide)]

/-- Without the request for JSON the job is the same but for it. -/
theorem Given.job_forget (g : Given) :
    g.forget.job = g.job.map fun job => { job with json := false } := by
  unfold job
  rw [operands_forget]
  cases g.operands with
  | nil => rfl
  | cons file operands =>
    simp [Except.map, value?_forget]

theorem Given.json_of_job {g : Given} {job : Job} (h : g.job = .ok job) :
    job.json = g.has .json ∧ g.operands ≠ [] := by
  unfold Given.job at h
  split at h
  · cases h
  · rename_i hoperands
    cases h
    simp [hoperands]

/-- Before the command the mark is neither an option nor a value. -/
theorem Phrase.notMem_jsonMark {words : List String} {item : Item}
    (h : Phrase .beforeCommand words item) : jsonMark ∉ words := by
  have hunknown : readArgument .beforeCommand jsonMark = .unknown := by decide
  have hvalue : isValue jsonMark = false := by decide
  cases h with
  | operand hplace _ => exact absurd rfl hplace
  | attached h _ | mark h _ =>
    rw [List.mem_singleton]
    rintro rfl
    rw [hunknown] at h
    cases h
  | separate h _ hv =>
    simp only [List.mem_cons, List.not_mem_nil, or_false, not_or]
    constructor
    · rintro rfl
      rw [hunknown] at h
      cases h
    · rintro rfl
      rw [hvalue] at hv
      cases hv

/-- What stands before the command can be read whatever stands after it, and has no mark. -/
theorem exists_front {name : String} {arguments others : List String}
    (h : readPlace .beforeCommand {} arguments = .ok (outer, name :: others)) :
    ∃ front, arguments = front ++ name :: others ∧ jsonMark ∉ front ∧
      ∀ others', readPlace .beforeCommand {} (front ++ name :: others') =
        .ok (outer, name :: others') := by
  obtain ⟨phrases, items, ending, rfl, hphrases, hending⟩ := phrased_of_readPlace h
  rw [readPlace_phrases hphrases] at h
  obtain ⟨g, hitems, h⟩ := bind_eq_ok_iff.mp h
  cases hending with
  | done => cases h
  | separator operands hseparator =>
    rw [readPlace_separator hseparator] at h
    obtain ⟨_, -, ⟨⟩⟩ := bind_eq_ok_iff.mp h
  | command rest _ hoperand =>
    rw [readPlace_command hoperand] at h
    cases h
    refine ⟨phrases.flatten, rfl, ?_, fun others' => ?_⟩
    · intro hmem
      obtain ⟨words, hwords, hmem⟩ := List.mem_flatten.mp hmem
      obtain ⟨item, -, hphrase⟩ := exists_of_mem_forall₂ hphrases.flip hwords
      exact hphrase.notMem_jsonMark hmem
    · rw [readPlace_phrases hphrases, hitems]
      exact readPlace_command hoperand _ _

/-- The mark of a request to compile stands after `compile`. -/
theorem exists_after_compile {front before after others : List String} (hfront : jsonMark ∉ front)
    (heq : front ++ "compile" :: others = before ++ jsonMark :: after) :
    ∃ between, before = front ++ "compile" :: between ∧ others = between ++ jsonMark :: after := by
  obtain ⟨as, rfl, has⟩ | ⟨bs, rfl, hbs⟩ := List.append_eq_append_iff.mp heq
  · cases as with
    | nil => exact absurd (List.cons.inj has).1 (by decide)
    | cons a as =>
      obtain ⟨rfl, rfl⟩ := List.cons.inj has
      exact ⟨as, rfl, rfl⟩
  · cases bs with
    | nil => exact absurd (List.cons.inj hbs).1 (by decide)
    | cons b bs =>
      obtain ⟨rfl, -⟩ := List.cons.inj hbs
      simp at hfront

/-- **The two requests of a pair.** If arguments make a request to compile with the mark and
without it, the mark asks for JSON and changes nothing else. -/
theorem parse_marked_unmarked {before after : List String} {job job' : Job}
    {config config' logLevel logLevel' : Option String}
    (hmarked : Request.parse fallback (before ++ jsonMark :: after) =
      .ok ⟨.compile job', config', logLevel'⟩)
    (hplain : Request.parse fallback (before ++ after) = .ok ⟨.compile job, config, logLevel⟩) :
    job'.json = true ∧ job = { job' with json := false } ∧ config' = config ∧
      logLevel' = logLevel := by
  obtain ⟨outer, inner, others, rest, houter, hinner, hjob, hsettled⟩ :=
    parse_eq_ok_compile_iff.mp hmarked
  obtain ⟨front, heq, hfront, hread⟩ := exists_front houter
  obtain ⟨between, rfl, rfl⟩ := exists_after_compile hfront heq.symm
  obtain ⟨outer', inner', others', rest', houter', hinner', hjob', hsettled'⟩ :=
    parse_eq_ok_compile_iff.mp hplain
  rw [List.append_assoc, List.cons_append, hread] at houter'
  cases houter'
  obtain ⟨hjson, rfl⟩ := readPlace_marked_unmarked hinner hinner' (Given.json_of_job hjob').2
  rw [Given.job_forget, hjob] at hjob'
  cases hjob'
  obtain ⟨-, rfl, rfl⟩ := hsettled
  obtain ⟨-, rfl, rfl⟩ := Settled.forget.mp hsettled'
  exact ⟨(Given.json_of_job hjob).1.trans hjson, rfl, rfl, rfl⟩

/-- Every request to compile is one of a pair. -/
theorem exists_marked_unmarked {arguments : List String} (h : Compiles fallback arguments) :
    ∃ before after,
      arguments = before ++ after ∧ Compiles fallback (before ++ jsonMark :: after) ∨
      arguments = before ++ jsonMark :: after ∧ Compiles fallback (before ++ after) := by
  obtain ⟨job, config, logLevel, h⟩ := h
  obtain ⟨outer, inner, others, rest, houter, hinner, hjob, hsettled⟩ :=
    parse_eq_ok_compile_iff.mp h
  obtain ⟨front, rfl, -, hread⟩ := exists_front houter
  cases hjson : inner.has .json with
  | false =>
    -- the mark goes right after `compile`
    obtain ⟨inner', hinner'⟩ := readPlace_marked hinner hjson
    obtain ⟨-, hplain⟩ := readPlace_unmarked .nil hinner'
    obtain ⟨rfl, -⟩ := Prod.mk.inj (Except.ok.inj (hinner.symm.trans hplain))
    rw [Given.job_forget] at hjob
    cases hjob' : inner'.job with
    | error stop => simp [hjob', Except.map] at hjob
    | ok job' =>
      refine ⟨front ++ ["compile"], others, .inl ⟨by simp, ?_⟩⟩
      refine ⟨job', config, logLevel, parse_eq_ok_compile_iff.mpr ?_⟩
      refine ⟨outer, inner', jsonMark :: others, rest, ?_, hinner', hjob', ?_⟩
      · simpa using hread (jsonMark :: others)
      · exact Settled.forget.mp hsettled
  | true =>
    -- one of the phrases asks for JSON, and it is left out
    obtain ⟨phrases, items, ending, rfl, hphrases, hending⟩ := phrased_of_readPlace hinner
    have hitems : items.any Item.asksJson = true := by
      have hhas := (has_json_of_readPlace hphrases hending hinner).1
      rwa [hjson, eq_comm, Bool.or_eq_true, or_iff_right (by decide)] at hhas
    obtain ⟨before, items', after, hbefore, heq⟩ := exists_jsonMark hphrases hitems ending
    rw [heq] at hinner ⊢
    obtain ⟨-, hplain⟩ := readPlace_unmarked hbefore hinner
    refine ⟨front ++ "compile" :: before.flatten, after, .inr ⟨by simp, ?_⟩⟩
    refine ⟨{ job with json := false }, config, logLevel, parse_eq_ok_compile_iff.mpr ?_⟩
    refine ⟨outer, inner.forget, before.flatten ++ after, rest, ?_, hplain, ?_, ?_⟩
    · simpa using hread (before.flatten ++ after)
    · rw [Given.job_forget, hjob]
      rfl
    · exact Settled.forget.mpr hsettled

-- ---------------------------------------------------------------------------
-- Runs
-- ---------------------------------------------------------------------------

/-- The effect of an output: a file is written if one is named, else the text is printed. -/
def Effect.to : Option String → String → Effect
  | none, text => .print text
  | some path, text => .write path text

/-- The compiled program of a job whose output can be written. -/
def Job.outcome (job : Job) (s : Settings) (storage : Storage) :
    Except Failure CompiledProgram := do
  let compiled ← job.compile s storage
  match job.output with
  | none => return compiled
  | some path =>
    let _ ← orFail (storage.write path "")
    return compiled

/-- Whether a file can be written does not depend on the text. -/
theorem write_cases (storage : Storage) (path : String) :
    (∃ fault, ∀ text, storage.write path text = .error fault) ∨
      ∀ text, ∃ written, storage.write path text = .ok written := by
  simp only [Storage.write]
  cases storage.resolve? path with
  | none => exact .inl ⟨_, fun _ => rfl⟩
  | some p =>
    dsimp only
    cases storage.find? p with
    | none => exact .inr fun _ => ⟨_, rfl⟩
    | some entry =>
      cases entry with
      | directory => exact .inl ⟨_, fun _ => rfl⟩
      | _ => exact .inr fun _ => ⟨_, rfl⟩

/-- A job writes its compiled program where it was asked to, if both can be had. -/
theorem Job.run_eq (job : Job) (s : Settings) (storage : Storage) :
    job.run s storage = (job.outcome s storage).map fun c => .to job.output (job.render c) := by
  unfold run outcome
  cases job.compile s storage with
  | error failure => rfl
  | ok c =>
    simp only [bind, Except.bind]
    cases job.output with
    | none => rfl
    | some path =>
      obtain ⟨fault, hfault⟩ | hwritten := write_cases storage path
      · simp only [hfault, orFail]
        rfl
      · obtain ⟨written, h⟩ := hwritten (job.render c)
        obtain ⟨written', h'⟩ := hwritten ""
        simp only [h, h', orFail]
        rfl

/-- What a request to compile comes to does not depend on the form of its output. -/
theorem Request.exists_outcome (job : Job) (config logLevel : Option String)
    (around : Surroundings) :
    ∃ outcome : Except Failure CompiledProgram, ∀ json,
      Request.run ⟨.compile { job with json := json }, config, logLevel⟩ around =
        outcome.map fun c => .to job.output ({ job with json := json }.render c) := by
  cases hload : orFail (Settings.load around config) with
  | error failure =>
    refine ⟨.error failure, fun json => ?_⟩
    simp only [Request.run, hload]
    rfl
  | ok s =>
    let level := logLevel.getD s.logging.level
    refine ⟨job.outcome { s with logging := { s.logging with level := level } } around.storage, ?_⟩
    intro json
    simp only [Request.run, hload]
    exact Job.run_eq { job with json := json } _ around.storage

/-- Two runs that come to the same compiled program: they fail alike, or one writes its lines and
the other JSON that reads back as it, to the same place and with a line feed at the end. -/
inductive Agree : Except Failure Effect → Except Failure Effect → Prop
  | failed (failure : Failure) : Agree (.error failure) (.error failure)
  | written (output : Option String) {c : CompiledProgram} {json : String}
      (h : CompiledProgram.parseJson json = .ok c)
      (hline : CompiledProgram.parseJson (json ++ "\n") = .ok c) :
      Agree (.ok (.to output (c.text ++ "\n"))) (.ok (.to output (json ++ "\n")))

/-- **Both forms of the output carry the same program.** A compiled program, whatever texts it
holds, reads back from its JSON in both layouts. Every request to compile is one of a pair, with
the mark that asks for JSON and without it; and the two runs of a pair agree. -/
theorem compile_outputs_agree :
    (∀ c : CompiledProgram, CompiledProgram.parseJson c.compactJson = .ok c ∧
      CompiledProgram.parseJson c.prettyJson = .ok c) ∧
    (∀ fallback arguments, Compiles fallback arguments →
      ∃ before after,
        arguments = before ++ after ∧ Compiles fallback (before ++ jsonMark :: after) ∨
        arguments = before ++ jsonMark :: after ∧ Compiles fallback (before ++ after)) ∧
    ∀ (around : Surroundings) (before after : List String),
      Compiles (around.setting? configVariable) (before ++ after) →
      Compiles (around.setting? configVariable) (before ++ jsonMark :: after) →
      Agree (run around (before ++ after)) (run around (before ++ jsonMark :: after)) := by
  refine ⟨fun c => ⟨c.parseJson_compactJson, c.parseJson_prettyJson.1⟩,
    fun fallback arguments => exists_marked_unmarked, ?_⟩
  rintro around before after ⟨job, config, logLevel, hplain⟩ ⟨job', config', logLevel', hmarked⟩
  obtain ⟨hjson, rfl, rfl, rfl⟩ := parse_marked_unmarked hmarked hplain
  obtain ⟨outcome, houtcome⟩ := Request.exists_outcome job' config' logLevel' around
  have hmark : { job' with json := true } = job' := by rw [← hjson]
  have hmarkedRun := houtcome true
  rw [hmark] at hmarkedRun
  simp only [run, hplain, hmarked]
  rw [houtcome false, hmarkedRun]
  cases outcome with
  | error failure => exact .failed failure
  | ok c =>
    have hrender : job'.render c = c.prettyJson ++ "\n" := by simp [Job.render, hjson]
    simp only [Except.map, hrender]
    exact .written job'.output c.parseJson_prettyJson.1 c.parseJson_prettyJson.2

/-- A directory with one program file. -/
def bellDirectory : Surroundings :=
  { storage := Storage.put {} "bell" (.text "H q0\nCNOT q0 q1\n") }

/-- A program is compiled to a file; the mark may stand before the program's name. -/
theorem compile_outputs_agree_bell :
    Compiles none ["compile", "bell", "-o", "out"] ∧
    Compiles none ["compile", "--json", "bell", "-o", "out"] ∧
    run bellDirectory ["compile", "bell", "-o", "out"] = .ok (.write "out"
      "ry(1.570796) q0\nrx(3.141593) q0\nry(-1.570796) q1\ncz(q0, q1)\nry(1.570796) q1\n") ∧
    Agree (run bellDirectory ["compile", "bell", "-o", "out"])
      (run bellDirectory ["compile", "--json", "bell", "-o", "out"]) := by
  have hplain : Compiles none ["compile", "bell", "-o", "out"] :=
    ⟨{ file := "bell", output := some "out" }, none, none, by decide +kernel⟩
  have hmarked : Compiles none ["compile", "--json", "bell", "-o", "out"] :=
    ⟨{ file := "bell", json := true, output := some "out" }, none, none, by decide +kernel⟩
  refine ⟨hplain, hmarked, by decide +kernel, ?_⟩
  exact compile_outputs_agree.2.2 bellDirectory ["compile"] ["bell", "-o", "out"] hplain hmarked

end QuantumCompiler.CommandLine

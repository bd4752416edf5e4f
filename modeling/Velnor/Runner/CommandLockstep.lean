/-
  The parser and the log renderer are two state machines over the lines of a
  step's output.  Both keep a stop token, and both move it as `stopStep` does,
  so over one sequence of lines they agree at every line.

  A step has two outputs, though.  The parser is started anew for stderr
  (execution/command_output.rs), while the renderer reads stdout and stderr as
  one sequence and carries its token over.  So a token that stdout leaves set is
  still in force for the renderer, and not for the parser, on the first line of
  stderr; `RunsIntoStderr` rules that out.
-/
import Velnor.Runner.CommandRender

namespace Velnor.Runner

open Text Relational CommandEcho List Option

/-! ## The stop token -/

/-- The token after a line. -/
def stopStep (allow : Bool) (stopped : Option Str) (line : Str) : Option Str :=
  match commandParts? line with
  | none => stopped
  | some (header, value) =>
    match stopped with
    | some token => if eqIgnoreAsciiCase (headerName header) token then none else stopped
    | none =>
      if eqIgnoreAsciiCase (headerName header) "stop-commands"
          ∧ (stopCommandTokenIsInvalid (unescapeData value) = false ∨ allow = true) then
        some (unescapeData value)
      else none

theorem isRegisteredCommand_of_mem {name command : Str} (hmem : command ∈ registeredCommands)
    (h : eqIgnoreAsciiCase name command = true) : isRegisteredCommand name = true := by
  rw [eqIgnoreAsciiCase_comm] at h
  exact any_eq_true.mpr ⟨command, hmem, h⟩

theorem processStopCommands_snd (state : StepCommandState) (token : Str)
    (policy : CommandPolicy) :
    (processStopCommands state token policy).2
      = if stopCommandTokenIsInvalid token = false ∨ policy.allowUnsecureStopCommandTokens = true
        then some token else none := by
  unfold processStopCommands
  cases stopCommandTokenIsInvalid token <;> cases policy.allowUnsecureStopCommandTokens <;> rfl

variable {p : ParserState} {stopped : Option Str} (policy : CommandPolicy) (echo : CommandEcho)

theorem ite_stopped {c : Prop} [Decidable c] {a b : ParserState} (ha : a.stopped = stopped)
    (hb : b.stopped = stopped) : (if c then a else b).stopped = stopped := by
  by_cases h : c
  · rw [if_pos h, ha]
  · rw [if_neg h, hb]

/-- Only `stop-commands` moves the token of a parser that is not stopped. -/
theorem processCommand_stopped (hp : p.stopped = none) (line : Str)
    (command : WorkflowCommand) :
    (processCommand policy p line command).stopped
      = if eqIgnoreAsciiCase command.name "stop-commands"
            ∧ (stopCommandTokenIsInvalid command.value = false
              ∨ policy.allowUnsecureStopCommandTokens = true)
        then some command.value else none := by
  have hlower : eqIgnoreAsciiCase command.name "stop-commands" = true
      ↔ toAsciiLowercase command.name = "stop-commands" := by
    rw [eqIgnoreAsciiCase_iff]
    rfl
  by_cases hname : toAsciiLowercase command.name = "stop-commands"
  · simp only [processCommand, if_pos hname, processStopCommands_snd, hlower.mpr hname, true_and]
  rw [if_neg fun h => hname (hlower.mp h.1)]
  unfold processCommand
  rw [if_neg hname]
  -- every other command leaves the field as it was
  iterate 10 refine ite_stopped hp ?_
  exact hp

section Recognition

variable {line header value : Str}

theorem parseWorkflowCommand_recognised (hparts : commandParts? line = some (header, value))
    (h : isRegisteredCommand (headerName header) = true
      ∨ stopped.any (fun token => eqIgnoreAsciiCase token (headerName header)) = true) :
    parseWorkflowCommand line stopped
      = some ⟨headerName header, headerProperties header, unescapeData value⟩ := by
  rw [parseWorkflowCommand, hparts]
  apply if_neg
  rcases h with h | h <;> simp only [h, Bool.not_true, Bool.false_and, Bool.and_false,
    Bool.false_eq_true, not_false_eq_true]

theorem parseWorkflowCommand_unrecognised (hparts : commandParts? line = some (header, value))
    (hregistered : isRegisteredCommand (headerName header) = false)
    (htoken : stopped.any (fun token => eqIgnoreAsciiCase token (headerName header)) = false) :
    parseWorkflowCommand line stopped = none := by
  rw [parseWorkflowCommand, hparts]
  apply if_pos
  simp only [hregistered, htoken, Bool.not_false, Bool.and_self]

theorem parseWorkflowCommand_eq_some {command : WorkflowCommand}
    (h : parseWorkflowCommand line stopped = some command) :
    ∃ header value, commandParts? line = some (header, value)
      ∧ command = ⟨headerName header, headerProperties header, unescapeData value⟩
      ∧ (isRegisteredCommand (headerName header) = true
        ∨ stopped.any (fun token => eqIgnoreAsciiCase token (headerName header)) = true) := by
  cases hparts : commandParts? line with
  | none =>
    rw [parseWorkflowCommand, hparts] at h
    cases h
  | some parts =>
    obtain ⟨header, value⟩ := parts
    refine ⟨header, value, rfl, ?_⟩
    by_cases hknown : isRegisteredCommand (headerName header) = true
        ∨ stopped.any (fun token => eqIgnoreAsciiCase token (headerName header)) = true
    · rw [parseWorkflowCommand_recognised hparts hknown] at h
      exact ⟨(some.inj h).symm, hknown⟩
    obtain ⟨hregistered, htoken⟩ := not_or.mp hknown
    rw [parseWorkflowCommand_unrecognised hparts (Bool.eq_false_iff.mpr hregistered)
      (Bool.eq_false_iff.mpr htoken)] at h
    cases h

end Recognition

variable {line : Str}

/-- While stopped, the line of the token resumes and nothing else has an effect. -/
theorem parseLine_of_stopped {token : Str} (hp : p.stopped = some token)
    {header value : Str} (hparts : commandParts? line = some (header, value)) :
    parseLine policy p line
      = if eqIgnoreAsciiCase (headerName header) token then { p with stopped := none } else p := by
  cases hresume : eqIgnoreAsciiCase (headerName header) token with
  | true =>
    have hany : p.stopped.any (fun token => eqIgnoreAsciiCase token (headerName header))
        = true := by
      rw [hp, any_some, eqIgnoreAsciiCase_comm, hresume]
    rw [parseLine, parseWorkflowCommand_recognised hparts (.inr hany), hp]
    simp only [hresume]
  | false =>
    have hany : p.stopped.any (fun token => eqIgnoreAsciiCase token (headerName header))
        = false := by
      rw [hp, any_some, eqIgnoreAsciiCase_comm, hresume]
    cases hregistered : isRegisteredCommand (headerName header) with
    | true =>
      rw [parseLine, parseWorkflowCommand_recognised hparts (.inl hregistered), hp]
      simp only [hresume]
    | false =>
      rw [parseLine, parseWorkflowCommand_unrecognised hparts hregistered hany]
      rfl

theorem parseLine_stopped (p : ParserState) (line : Str) :
    (parseLine policy p line).stopped
      = stopStep policy.allowUnsecureStopCommandTokens p.stopped line := by
  cases hparts : commandParts? line with
  | none => simp only [parseLine, parseWorkflowCommand, stopStep, hparts]
  | some parts =>
    obtain ⟨header, _⟩ := parts
    cases hp : p.stopped with
    | some =>
      rw [parseLine_of_stopped policy hp hparts, stopStep, hparts]
      dsimp only
      split_ifs
      · rfl
      · exact hp
    | none =>
      rw [stopStep, hparts]
      cases hregistered : isRegisteredCommand (headerName header) with
      | true =>
        rw [parseLine, parseWorkflowCommand_recognised hparts (.inl hregistered), hp]
        exact processCommand_stopped policy hp line _
      | false =>
        have hnot : ¬ eqIgnoreAsciiCase (headerName header) "stop-commands" = true := by
          intro h
          rw [isRegisteredCommand_of_mem mem_cons_self h] at hregistered
          cases hregistered
        rw [parseLine, parseWorkflowCommand_unrecognised hparts hregistered (by rw [hp]; rfl)]
        exact hp.trans (if_neg fun h => hnot h.1).symm

/-! ## Stopped lines -/

/-- The line names the token. -/
def resumes (token line : Str) : Bool :=
  (commandParts? line).any fun parts => eqIgnoreAsciiCase (headerName parts.1) token

section Stopped
variable {policy} {token : Str}

theorem parseLine_of_resumes (hp : p.stopped = some token) :
    parseLine policy p line = if resumes token line then { p with stopped := none } else p := by
  cases hparts : commandParts? line with
  | none => simp [parseLine, parseWorkflowCommand, resumes, hparts]
  | some => simp only [parseLine_of_stopped policy hp hparts, resumes, hparts, any_some]

theorem run_parseLine_of_stopped (hp : p.stopped = some token) {seen : List Str}
    (h : ∀ line ∈ seen, resumes token line = false) : run (parseLine policy) p seen = p := by
  induction seen with
  | nil => rfl
  | cons line _ ih =>
    rw [run_cons, parseLine_of_resumes hp, h line mem_cons_self]
    exact ih fun line hline => h line (mem_cons_of_mem _ hline)

end Stopped

/-- The lines between an accepted stop and the line that resumes leave the parser
    as it was, and the output without them is parsed alike. -/
theorem stopped_lines_have_no_effect (policy : CommandPolicy) (scope : DeprecatedCommandScope)
    (before middle after : List Str) (stop resume token : Str)
    (hrunning : (run (parseLine policy) (.start policy scope) before).stopped = none)
    (hstop : stopStep policy.allowUnsecureStopCommandTokens none stop = some token)
    (hmiddle : ∀ line ∈ middle, resumes token line = false)
    (hresume : resumes token resume = true) : let start := ParserState.start policy scope
    (∀ seen, seen <+: middle →
        run (parseLine policy) start (before ++ [stop] ++ seen)
          = run (parseLine policy) start (before ++ [stop]))
      ∧ (run (parseLine policy) start (before ++ [stop] ++ middle ++ [resume])).stopped = none
      ∧ ∀ output shorter, lines output = before ++ [stop] ++ middle ++ resume :: after →
        lines shorter = before ++ [stop] ++ resume :: after →
        parseWorkflowCommandsWithPolicy output policy scope
          = parseWorkflowCommandsWithPolicy shorter policy scope := by
  intro start
  have hstopped : (run (parseLine policy) start (before ++ [stop])).stopped = some token := by
    rw [run_append, run_cons, run_nil, parseLine_stopped, hrunning, hstop]
  have hseen : ∀ seen, seen <+: middle →
      run (parseLine policy) start (before ++ [stop] ++ seen)
        = run (parseLine policy) start (before ++ [stop]) := by
    intro _ hpre
    rw [run_append]
    exact run_parseLine_of_stopped hstopped fun line hline => hmiddle line (hpre.subset hline)
  refine ⟨hseen, ?_, fun output shorter houtput hshorter => ?_⟩
  · rw [run_append, hseen middle prefix_rfl, run_cons, run_nil, parseLine_of_resumes hstopped,
      if_pos hresume]
  · rw [parseWorkflowCommandsWithPolicy, parseWorkflowCommandsWithPolicy, houtput, hshorter,
      run_append _ _ (before ++ [stop] ++ middle), hseen middle prefix_rfl,
      run_append _ _ (before ++ [stop])]

/-- An output of which the second line is stopped. -/
theorem stopped_lines_have_no_effect_one_line :
    parseWorkflowCommandsWithPolicy
        "::stop-commands::pause\n::set-output name=a::1\n::pause::\n::notice::done"
        ⟨false, false⟩ {}
      = parseWorkflowCommandsWithPolicy
        "::stop-commands::pause\n::pause::\n::notice::done" ⟨false, false⟩ {} :=
  (stopped_lines_have_no_effect ⟨false, false⟩ {} [] ["::set-output name=a::1"]
    ["::notice::done"] "::stop-commands::pause" "::pause::" "pause"
    rfl (by decide +kernel) (by decide +kernel) (by decide +kernel)).2.2 _ _ (by decide +kernel)
    (by decide +kernel)

/-! ## The renderer's token -/

theorem flip_stopped (value : Str) : (echo.flip value).stopped = echo.stopped := by
  unfold CommandEcho.flip
  dsimp only
  split_ifs <;> rfl

theorem renderStateCommand_stopped (line keyword value : Str) :
    (echo.renderStateCommand line keyword value).2.stopped = echo.stopped := by
  unfold renderStateCommand
  split
  · exact flip_stopped echo value
  split
  · rfl
  · rfl

variable (stepDebug allow : Bool)

/-- Only `stop-commands` moves the token of a renderer that is not stopped. -/
theorem renderCommand_stopped (line keyword value : Str)
    (hstop : ¬ eqIgnoreAsciiCase keyword "stop-commands" = true) :
    (echo.renderCommand line keyword value stepDebug allow).2.stopped = echo.stopped := by
  unfold renderCommand
  rw [if_neg hstop]
  split
  · rfl
  split
  · rfl
  split
  · rfl
  · exact renderStateCommand_stopped ..

theorem renderCommand_stopped_stop {echo : CommandEcho} (hstopped : echo.stopped = none)
    (line keyword value : Str)
    (hstop : eqIgnoreAsciiCase keyword "stop-commands" = true) :
    (echo.renderCommand line keyword value stepDebug allow).2.stopped
      = if stopCommandTokenIsInvalid (unescapeData value) = false ∨ allow = true
        then some (unescapeData value) else none := by
  unfold renderCommand
  simp only [Bool.or_eq_true, Bool.not_eq_true']
  split_ifs
  · rfl
  · exact hstopped

theorem next_stopped (line : Str) :
    (echo.next stepDebug allow line).stopped = stopStep allow echo.stopped line := by
  unfold CommandEcho.next renderLine stopStep
  cases commandParts? line with
  | none => rfl
  | some parts =>
    obtain ⟨header, _⟩ := parts
    cases hstopped : echo.stopped with
    | some token =>
      dsimp only
      cases eqIgnoreAsciiCase (headerName header) token with
      | true => rfl
      | false => exact hstopped
    | none =>
      dsimp only
      by_cases hstop : eqIgnoreAsciiCase (headerName header) "stop-commands" = true
      · rw [renderCommand_stopped_stop _ _ hstopped _ _ _ hstop]
        simp only [hstop, true_and]
      · rw [if_neg fun h => hstop h.1, renderCommand_stopped _ _ _ _ _ _ hstop, hstopped]

/-! ## Masks -/

/-- The parser takes a mask from the line: it is an `add-mask` command with a
    value that is not blank, and processing is not stopped. -/
def takesMask (stopped : Option Str) (line : Str) : Bool :=
  stopped.isNone && (parseWorkflowCommand line none).any fun command =>
    decide (toAsciiLowercase command.name = "add-mask") && decide (trim command.value ≠ [])

theorem takesMask_iff :
    takesMask stopped line = true ↔ stopped = none ∧ ∃ header value,
      commandParts? line = some (header, value)
        ∧ toAsciiLowercase (headerName header) = "add-mask"
        ∧ trim (unescapeData value) ≠ [] := by
  rw [takesMask, Bool.and_eq_true, isNone_iff_eq_none]
  refine and_congr_right fun _ => ?_
  constructor
  · intro h
    cases hcommand : parseWorkflowCommand line none with
    | none =>
      rw [hcommand] at h
      cases h
    | some =>
      obtain ⟨header, value, hparts, rfl, -⟩ := parseWorkflowCommand_eq_some hcommand
      rw [hcommand, any_some, Bool.and_eq_true, decide_eq_true_iff, decide_eq_true_iff] at h
      exact ⟨header, value, hparts, h⟩
  · rintro ⟨header, _, hparts, hname, hvalue⟩
    have hregistered : isRegisteredCommand (headerName header) = true :=
      isRegisteredCommand_of_mem (by decide : "add-mask".toList ∈ registeredCommands)
        (eqIgnoreAsciiCase_iff.mpr hname)
    rw [parseWorkflowCommand_recognised hparts (.inl hregistered), any_some,
      decide_eq_true hname, decide_eq_true hvalue]
    rfl

/-! ## Rendering a mask -/

/-- The keywords the renderer turns into a marker, in the one spelling it knows. -/
def markedKeywords : List Str := [
  "group", "endgroup", "error", "warning", "notice",
  "debug"]

theorem renderCommand_of_unmarked (stepDebug allow : Bool) (echo : CommandEcho)
    {keyword : Str} (line value : Str)
    (hstop : ¬ eqIgnoreAsciiCase keyword "stop-commands" = true)
    (hmarked : keyword ∉ markedKeywords) :
    echo.renderCommand line keyword value stepDebug allow
      = echo.renderStateCommand line keyword value := by
  simp only [markedKeywords, mem_cons, not_mem_nil, or_false, not_or] at hmarked
  obtain ⟨hgroup, hendgroup, herror, hwarning, hnotice, hdebug⟩ := hmarked
  unfold renderCommand
  rw [if_neg hstop, if_neg (not_or_intro hgroup hendgroup),
    if_neg (not_or_intro herror (not_or_intro hwarning hnotice)), if_neg hdebug]

/-- A line the parser takes a mask from adds nothing or the placeholder, and
    leaves the renderer as it was. -/
theorem renderLine_of_takesMask (stepDebug allow : Bool) {echo : CommandEcho}
    (h : takesMask echo.stopped line = true) :
    echo.renderLine line stepDebug allow = (if echo.on then [maskPlaceholder] else [], echo) := by
  obtain ⟨hstopped, header, value, hparts, hname, hvalue⟩ := takesMask_iff.mp h
  have hlower : ∀ command : Str, toAsciiLowercase command ≠ "add-mask" →
      ¬ eqIgnoreAsciiCase (headerName header) command = true := by
    intro _ hcommand heq
    exact hcommand ((eqIgnoreAsciiCase_iff.mp heq).symm.trans hname)
  have hmask : eqIgnoreAsciiCase (headerName header) "add-mask" = true :=
    eqIgnoreAsciiCase_iff.mpr hname
  have hmarked : headerName header ∉ markedKeywords := by
    intro hmem
    have hall : ∀ keyword ∈ markedKeywords, toAsciiLowercase keyword ≠ "add-mask" := by decide
    exact hall _ hmem hname
  rw [renderLine, hparts, hstopped]
  dsimp only
  rw [renderCommand_of_unmarked stepDebug allow echo line value (hlower _ (by decide)) hmarked,
    renderStateCommand, if_neg (hlower _ (by decide)), if_pos hmask]
  simp only [hvalue, ne_eq, not_false_eq_true, and_true]

/-! ## One sequence of lines -/

section Sequence

variable {policy stepDebug allow echo} {p' : ParserState}

/-- Parser and renderer have the same stop token. -/
def InStep (p : ParserState) (echo : CommandEcho) : Prop := p.stopped = echo.stopped

variable (hallow : policy.allowUnsecureStopCommandTokens = allow) (h : InStep p echo)
include hallow h

theorem InStep.next (stepDebug : Bool) (line : Str) :
    InStep (parseLine policy p line) (echo.next stepDebug allow line) := by
  rw [InStep, parseLine_stopped, next_stopped, h, hallow]

variable (input : List Str)

theorem inStep_run :
    InStep (run (parseLine policy) p input) (run (next stepDebug allow) echo input) :=
  run_sim (fun _ _ line hstep => hstep.next hallow stepDebug line) h input

/-- The stop tokens in force at each line are the same. -/
theorem stops_eq :
    trace (parseLine policy) (fun p _ => p.stopped) p input
      = trace (next stepDebug allow) (fun echo _ => echo.stopped) echo input := by
  refine trace_eq_of_sim (fun _ _ line hstep => hstep.next hallow stepDebug line) ?_ h input
  intro p echo line hstep
  exact hstep

/-- Nothing, or the one placeholder. -/
def Hidden (out : List Str) : Prop := out = [] ∨ out = [CommandEcho.maskPlaceholder]

theorem masks_hidden :
    List.Forall₂ (fun takes out => takes = true → Hidden out)
      (trace (parseLine policy) (fun p line => takesMask p.stopped line) p input)
      (trace (next stepDebug allow) (contribution stepDebug allow) echo input) := by
  refine trace_sim (fun _ _ line hstep => hstep.next hallow stepDebug line) ?_ h input
  intro p echo _ hstep htakes
  rw [show p.stopped = echo.stopped from hstep] at htakes
  rw [contribution, renderLine_of_takesMask _ _ htakes]
  cases echo.on with
  | true => exact .inr rfl
  | false => exact .inl rfl

/-- A line, and whether the parser takes a mask from it. -/
def observeMask (p : ParserState) (line : Str) : Str × Bool :=
  (line, takesMask p.stopped line)

/-- The same line, or two lines that a mask is taken from. -/
def SameButMask (a b : Str × Bool) : Prop := a.1 = b.1 ∨ (a.2 = true ∧ b.2 = true)

omit h in
/-- Outputs that differ in masks only render alike and leave the same state. -/
theorem render_sameButMask (stepDebug : Bool) (hp : InStep p echo) (hp' : InStep p' echo) :
    ∀ {input input' : List Str},
      List.Forall₂ SameButMask (trace (parseLine policy) observeMask p input)
        (trace (parseLine policy) observeMask p' input') →
      trace (next stepDebug allow) (contribution stepDebug allow) echo input'
          = trace (next stepDebug allow) (contribution stepDebug allow) echo input
        ∧ run (next stepDebug allow) echo input' = run (next stepDebug allow) echo input := by
  intro input
  induction input generalizing p p' echo with
  | nil =>
    intro input' h
    cases input' with
    | nil => exact ⟨rfl, rfl⟩
    | cons => cases h
  | cons line _ ih =>
    intro input' h
    cases input' with
    | nil => cases h
    | cons line' =>
      obtain ⟨hhead, htail⟩ := forall₂_cons.mp h
      -- both lines add the same and lead to the same state
      have hsame :
          echo.renderLine line' stepDebug allow = echo.renderLine line stepDebug allow := by
        rcases hhead with heq | ⟨htakes, htakes'⟩
        · rw [show line = line' from heq]
        · rw [observeMask, show p.stopped = echo.stopped from hp] at htakes
          rw [observeMask, show p'.stopped = echo.stopped from hp'] at htakes'
          rw [renderLine_of_takesMask _ _ htakes, renderLine_of_takesMask _ _ htakes']
      have hnext : echo.next stepDebug allow line' = echo.next stepDebug allow line :=
        congrArg Prod.snd hsame
      have hout :
          echo.contribution stepDebug allow line' = echo.contribution stepDebug allow line :=
        congrArg Prod.fst hsame
      have hstep' := hp'.next hallow stepDebug line'
      rw [hnext] at hstep'
      obtain ⟨htrace, hrun⟩ := ih (hp.next hallow stepDebug line) hstep' htail
      simp only [trace, run_cons, hnext, hout, htrace, hrun, true_and]

end Sequence

/-! ## A step's two outputs -/

section Step

variable (policy : CommandPolicy) (scope : DeprecatedCommandScope) (on stepDebug : Bool)
  (stdout stderr : Str)

/-- The parser after stdout. -/
def afterStdout : ParserState := run (parseLine policy) (.start policy scope) (lines stdout)

/-- What `obs` sees of the parser at each line of the step's output: stderr is
    parsed from the start again. -/
def parserTrace {ω : Type} (obs : ParserState → Str → ω) : List ω :=
  trace (parseLine policy) obs (.start policy scope) (lines stdout)
    ++ trace (parseLine policy) obs (.start policy (afterStdout policy scope stdout).scope)
      (lines stderr)

/-- What `obs` sees of the renderer at each line of the step's output: stderr is
    rendered after stdout. -/
def rendererTrace {ω : Type} (obs : CommandEcho → Str → ω) : List ω :=
  trace (CommandEcho.next stepDebug policy.allowUnsecureStopCommandTokens) obs ⟨on, none⟩
    (lines stdout ++ lines stderr)

/-- Parser and renderer have the same stop token at every line. -/
def StopsAgree : Prop :=
  parserTrace policy scope stdout stderr (fun p _ => p.stopped)
    = rendererTrace policy on stepDebug stdout stderr (fun echo _ => echo.stopped)

/-- Every line the parser takes a mask from adds nothing or the placeholder. -/
def MasksHidden : Prop :=
  List.Forall₂ (fun takes out => takes = true → Hidden out)
    (parserTrace policy scope stdout stderr fun p line => takesMask p.stopped line)
    (rendererTrace policy on stepDebug stdout stderr
      (CommandEcho.contribution stepDebug policy.allowUnsecureStopCommandTokens))

/-- Two outputs with the same lines but for the values of masks that are taken. -/
def MaskVariant (output output' : Str) : Prop :=
  List.Forall₂ SameButMask
    (trace (parseLine policy) observeMask (.start policy scope) (lines output))
    (trace (parseLine policy) observeMask (.start policy scope) (lines output'))

/-- Every step output that differs in masks only renders alike, line by line. -/
def VariantsRenderAlike : Prop :=
  ∀ stdout' stderr', MaskVariant policy scope stdout stdout' →
    MaskVariant policy (afterStdout policy scope stdout).scope stderr stderr' →
    rendererTrace policy on stepDebug stdout' stderr'
        (CommandEcho.contribution stepDebug policy.allowUnsecureStopCommandTokens)
      = rendererTrace policy on stepDebug stdout stderr
        (CommandEcho.contribution stepDebug policy.allowUnsecureStopCommandTokens)

/-- No token is in force when stderr begins, if it has a line at all. -/
def RunsIntoStderr : Prop := lines stderr = [] ∨ (afterStdout policy scope stdout).stopped = none

variable {policy scope on stepDebug stdout stderr}

theorem inStep_start : InStep (.start policy scope) ⟨on, none⟩ := rfl

theorem inStep_afterStdout : InStep (afterStdout policy scope stdout)
    (run (next stepDebug policy.allowUnsecureStopCommandTokens) ⟨on, none⟩ (lines stdout)) :=
  inStep_run rfl inStep_start (lines stdout)

/-- When stderr begins without a token, the renderer is in step there with the
    parser's fresh start. -/
theorem inStep_stderr (h : (afterStdout policy scope stdout).stopped = none) :
    InStep (.start policy (afterStdout policy scope stdout).scope)
      (run (next stepDebug policy.allowUnsecureStopCommandTokens) ⟨on, none⟩ (lines stdout)) :=
  h.symm.trans inStep_afterStdout

section

variable (h : RunsIntoStderr policy scope stdout stderr)
include h

theorem stopsAgree_of_runs : StopsAgree policy scope on stepDebug stdout stderr := by
  rw [StopsAgree, parserTrace, rendererTrace, trace_append]
  congr 1
  · exact stops_eq rfl inStep_start (lines stdout)
  rcases h with hempty | hnone
  · rw [hempty]
    rfl
  · exact stops_eq rfl (inStep_stderr hnone) (lines stderr)

theorem masksHidden_of_runs : MasksHidden policy scope on stepDebug stdout stderr := by
  rw [MasksHidden, rendererTrace, trace_append]
  refine rel_append (masks_hidden rfl inStep_start (lines stdout)) ?_
  rcases h with hempty | hnone
  · rw [hempty]
    exact .nil
  · exact masks_hidden rfl (inStep_stderr hnone) (lines stderr)

theorem variantsRenderAlike_of_runs :
    VariantsRenderAlike policy scope on stepDebug stdout stderr := by
  intro _ stderr' hstdout hstderr
  have hstart : InStep (.start policy scope) ⟨on, none⟩ := inStep_start
  have hsame := render_sameButMask rfl stepDebug hstart hstart hstdout
  rw [rendererTrace, rendererTrace, trace_append, trace_append, hsame.1, hsame.2]
  congr 1
  rcases h with hempty | hnone
  · rw [MaskVariant, hempty] at hstderr
    cases hstderr' : lines stderr' with
    | nil => rw [hempty]
    | cons =>
      rw [hstderr'] at hstderr
      cases hstderr
  · exact (render_sameButMask rfl stepDebug (inStep_stderr hnone) (inStep_stderr hnone) hstderr).1

end

/-- A token that stdout leaves set is what the renderer has on the first line of
    stderr, where the parser has none. -/
theorem runs_of_stopsAgree (h : StopsAgree policy scope on stepDebug stdout stderr) :
    RunsIntoStderr policy scope stdout stderr := by
  rw [StopsAgree, parserTrace, rendererTrace, trace_append,
    stops_eq rfl inStep_start (lines stdout)] at h
  have htail := append_cancel_left h
  cases hstderr : lines stderr with
  | nil => exact .inl hstderr
  | cons =>
    rw [hstderr] at htail
    exact .inr (inStep_afterStdout.trans (cons.inj htail).1.symm)

end Step

/-- Parser and renderer agree on the stop token at every line, the renderer hides
    every mask the parser takes, and outputs that differ in masks only render
    alike, exactly when stdout leaves no token in force for stderr. -/
theorem parser_and_renderer_in_lockstep (policy : CommandPolicy) (scope : DeprecatedCommandScope)
    (on stepDebug : Bool) (stdout stderr : Str) :
    (StopsAgree policy scope on stepDebug stdout stderr
        ∧ MasksHidden policy scope on stepDebug stdout stderr
        ∧ VariantsRenderAlike policy scope on stepDebug stdout stderr)
      ↔ RunsIntoStderr policy scope stdout stderr := by
  constructor
  · rintro ⟨hstops, -, -⟩
    exact runs_of_stopsAgree hstops
  · intro h
    exact ⟨stopsAgree_of_runs h, masksHidden_of_runs h, variantsRenderAlike_of_runs h⟩

/-- A token set on stdout, then a mask on stderr: the parser registers the mask
    and the log prints the line that carries it. -/
theorem stdout_token_exposes_stderr_mask :
    (parseWorkflowCommandsFromOutput "::stop-commands::tok" "::add-mask::s3cret"
          ⟨false, false⟩ {}).1.masks
        = ["s3cret".toList]
      ∧ renderedOutputLinesWithPolicy "::stop-commands::tok" "::add-mask::s3cret" false false
        = (["::stop-commands::tok", "::add-mask::s3cret"] : List Str) := by
  decide +kernel

end Velnor.Runner

/-
  Which lines stay visible in the rendered log.  The registry of commands says
  that a line naming anything else "stays in the log untouched", and the
  parser, like the runner it follows, ignores letter case.

  The renderer decides again by its own match, in which the markers have one
  spelling and whatever is left is consumed.  So an unregistered name and a
  marker in other letter case both disappear; `Spelled` is the exact condition
  under which neither happens.
-/
import Velnor.Runner.CommandLockstep

namespace Velnor.Runner

open Text CommandEcho List

/-- The commands that only render. -/
def shownKinds : List Str := ["error", "warning", "notice", "debug", "group"]

/-- A line that is no command is output as it is, and one that is accepted as a
    shown kind is output with the marker of that kind. -/
structure Visible (stepDebug allow : Bool) (echo : CommandEcho) (line : Str) : Prop where
  plain : parseWorkflowCommand line echo.stopped = none →
    echo.contribution stepDebug allow line = [line]
  shown : ∀ command, echo.stopped = none → parseWorkflowCommand line none = some command →
    toAsciiLowercase command.name ∈ shownKinds →
    ∃ header value, commandParts? line = some (header, value)
      ∧ CommandEcho.marker (toAsciiLowercase command.name) value
        ∈ echo.contribution stepDebug allow line

/-- The name is registered, and a shown kind is written in lower case; `debug`
    also needs step debug. -/
structure Spelled (stepDebug : Bool) (name : Str) : Prop where
  registered : isRegisteredCommand name = true
  lower : toAsciiLowercase name ∈ shownKinds → toAsciiLowercase name = name
  debug : name = "debug" → stepDebug = true

section Rendering

variable {stepDebug allow : Bool} {echo : CommandEcho} {line header value : Str}

theorem contribution_of_stopped {token : Str} (hstopped : echo.stopped = some token) :
    echo.contribution stepDebug allow line = [line] := by
  rw [contribution, renderLine]
  cases commandParts? line with
  | none => rfl
  | some => rw [hstopped]

theorem contribution_of_command (hstopped : echo.stopped = none)
    (hparts : commandParts? line = some (header, value)) :
    echo.contribution stepDebug allow line
      = (echo.renderCommand line (headerName header) value stepDebug allow).1 := by
  rw [contribution, renderLine, hparts, hstopped]

variable {keyword : Str}

/-- A name outside the registry, and a shown kind in other letter case, fall
    through to the arm that consumes the line. -/
theorem renderCommand_consumes (hstop : ¬ eqIgnoreAsciiCase keyword "stop-commands" = true)
    (hmarked : keyword ∉ markedKeywords) (hecho : ¬ eqIgnoreAsciiCase keyword "echo" = true)
    (hmask : ¬ eqIgnoreAsciiCase keyword "add-mask" = true)
    (hechoed : toAsciiLowercase keyword ∉ echoedCommands) :
    (echo.renderCommand line keyword value stepDebug allow).1 = [] := by
  rw [renderCommand_of_unmarked stepDebug allow echo line value hstop hmarked,
    renderStateCommand, if_neg hecho, if_neg hmask]
  exact if_neg fun h => hechoed h.2

theorem consumes_of_unregistered (hregistered : isRegisteredCommand keyword = false) :
    (echo.renderCommand line keyword value stepDebug allow).1 = [] := by
  have hnot : ∀ command ∈ registeredCommands, ¬ eqIgnoreAsciiCase keyword command = true := by
    intro _ hmem h
    rw [isRegisteredCommand_of_mem hmem h] at hregistered
    cases hregistered
  have hlower :
      ∀ command ∈ registeredCommands, toAsciiLowercase keyword ≠ toAsciiLowercase command :=
    fun command hmem h => hnot command hmem (eqIgnoreAsciiCase_iff.mpr h)
  refine renderCommand_consumes (hnot _ (by decide)) ?_ (hnot _ (by decide)) (hnot _ (by decide)) ?_
  · intro hmem
    have hsub : ∀ command ∈ markedKeywords, command ∈ registeredCommands := by decide
    exact hlower keyword (hsub keyword hmem) rfl
  · intro hmem
    have hsub : ∀ command ∈ echoedCommands,
        command ∈ registeredCommands ∧ toAsciiLowercase command = command := by decide
    obtain ⟨hreg, hself⟩ := hsub _ hmem
    exact hlower _ hreg hself.symm

theorem consumes_of_other_case (hkind : toAsciiLowercase keyword ∈ shownKinds)
    (hcase : toAsciiLowercase keyword ≠ keyword) :
    (echo.renderCommand line keyword value stepDebug allow).1 = [] := by
  have hnot : ∀ command, toAsciiLowercase command ∉ shownKinds →
      ¬ eqIgnoreAsciiCase keyword command = true := by
    intro _ hcommand h
    rw [eqIgnoreAsciiCase_iff] at h
    exact hcommand (h ▸ hkind)
  refine renderCommand_consumes (hnot _ (by decide)) ?_ (hnot _ (by decide)) (hnot _ (by decide)) ?_
  · intro hmem
    -- every marked keyword is in lower case
    have hself : ∀ command ∈ markedKeywords, toAsciiLowercase command = command := by decide
    exact hcase (hself _ hmem)
  · intro hmem
    have hdisjoint : ∀ command ∈ echoedCommands, command ∉ shownKinds := by decide
    exact hdisjoint _ hmem hkind

/-- In its one spelling a shown kind gives its marker. -/
theorem marker_mem_renderCommand (hkind : keyword ∈ shownKinds)
    (hdebug : keyword = "debug" → stepDebug = true) :
    marker keyword value ∈ (echo.renderCommand line keyword value stepDebug allow).1 := by
  simp only [shownKinds, mem_cons, not_mem_nil, or_false] at hkind
  rcases hkind with rfl | rfl | rfl | rfl | rfl
  · exact mem_singleton_self _
  · exact mem_singleton_self _
  · exact mem_singleton_self _
  · rw [hdebug rfl]
    exact mem_singleton_self _
  · have hgroup : (echo.renderCommand line "group" value stepDebug allow).1
        = if echo.on then [line, marker "group" value]
          else [marker "group" value] := rfl
    rw [hgroup]
    split_ifs
    · exact mem_cons_of_mem _ (mem_singleton_self _)
    · exact mem_singleton_self _

/-- The condition is enough. -/
theorem visible_of_spelled
    (hspelled : ∀ header value, commandParts? line = some (header, value) →
      Spelled stepDebug (headerName header)) :
    Visible stepDebug allow echo line where
  plain := by
    intro hparse
    cases hparts : commandParts? line with
    | none => rw [contribution, renderLine, hparts]
    | some parts =>
      have hregistered := (hspelled parts.1 parts.2 hparts).registered
      rw [parseWorkflowCommand_recognised hparts (.inl hregistered)] at hparse
      cases hparse
  shown := by
    intro _ hstopped hparse hkind
    obtain ⟨header, value, hparts, rfl, -⟩ := parseWorkflowCommand_eq_some hparse
    refine ⟨header, value, hparts, ?_⟩
    have hname := hspelled header value hparts
    have hlower := hname.lower hkind
    rw [contribution_of_command hstopped hparts]
    rw [hlower] at hkind ⊢
    exact marker_mem_renderCommand hkind hname.debug

/-- The condition is needed: otherwise the line is consumed. -/
theorem spelled_of_visible (hstopped : echo.stopped = none)
    (hvisible : Visible stepDebug allow echo line)
    (hparts : commandParts? line = some (header, value)) :
    Spelled stepDebug (headerName header) := by
  have hcontribution : echo.contribution stepDebug allow line
      = (echo.renderCommand line (headerName header) value stepDebug allow).1 :=
    contribution_of_command hstopped hparts
  have hregistered : isRegisteredCommand (headerName header) = true := by
    by_contra hnot
    have hfalse := Bool.eq_false_iff.mpr hnot
    have hplain := hvisible.plain
      (parseWorkflowCommand_unrecognised hparts hfalse (by rw [hstopped]; rfl))
    rw [hcontribution, consumes_of_unregistered hfalse] at hplain
    cases hplain
  -- what is accepted as a shown kind is not consumed
  have hshown : toAsciiLowercase (headerName header) ∈ shownKinds →
      (echo.renderCommand line (headerName header) value stepDebug allow).1 ≠ [] := by
    intro hkind hnil
    obtain ⟨_, _, _, hmem⟩ := hvisible.shown _ hstopped
      (parseWorkflowCommand_recognised hparts (.inl hregistered)) hkind
    rw [hcontribution, hnil] at hmem
    cases hmem
  constructor
  · exact hregistered
  · intro hkind
    by_contra hcase
    exact hshown hkind (consumes_of_other_case hkind hcase)
  · intro hdebug
    by_contra hoff
    rw [Bool.eq_false_iff.mpr hoff, hdebug] at hshown
    exact hshown (by decide) rfl

end Rendering

/-- A line that is no command stays in the log and a command that only renders is
    rendered as its kind, exactly when commands are stopped or the line, if it
    names a command, names a registered one in the spelling the renderer knows. -/
theorem lines_stay_visible_iff (stepDebug allow : Bool) (echo : CommandEcho) (line : Str) :
    Visible stepDebug allow echo line ↔
      echo.stopped ≠ none ∨ ∀ header value, commandParts? line = some (header, value) →
        Spelled stepDebug (headerName header) := by
  constructor
  · intro hvisible
    by_cases hstopped : echo.stopped = none
    · exact .inr fun _ _ => spelled_of_visible hstopped hvisible
    · exact .inl hstopped
  · rintro (hstopped | hspelled)
    · obtain ⟨_, htoken⟩ := Option.ne_none_iff_exists'.mp hstopped
      exact ⟨fun _ => contribution_of_stopped htoken, fun _ hnone => absurd hnone hstopped⟩
    · exact visible_of_spelled hspelled

/-- The parser knows no command `foo` and accepts `ERROR`; the log has neither line. -/
theorem unknown_and_upper_case_dropped :
    parseWorkflowCommand "::foo::bar" none = none
      ∧ renderedOutputLinesWithPolicy "::foo::bar" [] false false = []
      ∧ (parseWorkflowCommand "::ERROR::boom" none).map (·.name) = some "ERROR".toList
      ∧ renderedOutputLinesWithPolicy "::ERROR::boom" [] false false = [] := by
  decide +kernel

end Velnor.Runner

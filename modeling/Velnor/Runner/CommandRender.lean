/-
  How a step's output is rendered for the uploaded log (workflow_command.rs):
  grouping and annotation commands become `##[...]` markers at their place,
  state-changing commands disappear unless echo is on, and other lines pass.

  The renderer keeps its own stop token beside the echo switch.
-/
import Velnor.Runner.WorkflowCommand

namespace Velnor.Runner

open Text Relational

structure CommandEcho where
  on : Bool
  stopped : Option Str
  deriving DecidableEq, Repr

namespace CommandEcho

def new (stepDebug : Bool) : CommandEcho := ⟨stepDebug, none⟩

/-- `##[keyword]value`. -/
def marker (keyword value : Str) : Str := "##[" ++ keyword ++ [']'] ++ value

/-- The one line that stands for any mask. -/
def maskPlaceholder : Str := "::add-mask::***"

/-- The commands that are echoed, besides `echo` itself. -/
def echoedCommands : List Str := [
  "set-env", "set-output", "save-state", "add-path",
  "add-matcher", "remove-matcher"]

variable (echo : CommandEcho)

/-- The switch applies after the current line is judged. -/
def flip (value : Str) : CommandEcho :=
  let setting := toAsciiUppercase (trim (unescapeData value))
  if setting = "ON" then { echo with on := true }
  else if setting = "OFF" then { echo with on := false }
  else echo

def renderStateCommand (line keyword value : Str) : List Str × CommandEcho :=
  if eqIgnoreAsciiCase keyword "echo" then
    (if echo.on then [line] else [], echo.flip value)
  else if eqIgnoreAsciiCase keyword "add-mask" then
    (if echo.on ∧ trim (unescapeData value) ≠ [] then [maskPlaceholder] else [], echo)
  else
    (if echo.on ∧ toAsciiLowercase keyword ∈ echoedCommands then [line] else [], echo)

/-- A complete command line while rendering is not stopped. -/
def renderCommand (line keyword value : Str) (stepDebug allowUnsecureStopCommandTokens : Bool)
    : List Str × CommandEcho :=
  if eqIgnoreAsciiCase keyword "stop-commands" then
    let token := unescapeData value
    ([line],
      if !stopCommandTokenIsInvalid token || allowUnsecureStopCommandTokens then
        { echo with stopped := some token }
      else echo)
  else if keyword = "group" ∨ keyword = "endgroup" then
    let marker :=
      if keyword = "group" then marker "group" value else "##[endgroup]"
    (if echo.on then [line, marker] else [marker], echo)
  else if keyword = "error" ∨ keyword = "warning" ∨ keyword = "notice" then
    ([marker keyword value], echo)
  else if keyword = "debug" then
    (if stepDebug then [marker "debug" value] else [], echo)
  else echo.renderStateCommand line keyword value

/-- What one output line adds to the log, and the state after it. -/
def renderLine (line : Str) (stepDebug allowUnsecureStopCommandTokens : Bool) :
    List Str × CommandEcho :=
  match commandParts? line with
  -- an incomplete command passes through
  | none => ([line], echo)
  | some (header, value) =>
    let keyword := headerName header
    match echo.stopped with
    | some token =>
      -- the resume line and every line before it are output as they are
      ([line], if eqIgnoreAsciiCase keyword token then { echo with stopped := none } else echo)
    | none =>
      echo.renderCommand line keyword value stepDebug allowUnsecureStopCommandTokens

variable (stepDebug allow : Bool) (echo : CommandEcho) (line : Str)

/-- The state after a line. -/
def next : CommandEcho := (echo.renderLine line stepDebug allow).2

/-- What a line adds to the log. -/
def contribution : List Str := (echo.renderLine line stepDebug allow).1

end CommandEcho

/-- The rendered log of a step: its stdout, then its stderr. -/
def renderedOutputLinesWithPolicy (stdout stderr : Str) (stepDebug allow : Bool) : List Str :=
  (trace (CommandEcho.next stepDebug allow) (CommandEcho.contribution stepDebug allow)
    (.new stepDebug) (lines stdout ++ lines stderr)).flatten

end Velnor.Runner

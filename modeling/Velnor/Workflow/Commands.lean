/-
  What the lane commands of a unit prove about the files it reads
  (velnor-workflow s2/reuse.rs, `analyze_commands`): quoted globs in the argv
  are its read-globs and, behind a `#`, its ignore-globs; anything the scan
  cannot bound makes the unit opaque, with the first cause as the reason.

  The source marks a unit opaque and gives the reason in one step, so both are
  one optional reason here.
-/
import Velnor.Text.Str

namespace Velnor.Workflow

open Text

/-! ## Tokens -/

/-- Whitespace and `;` separate tokens. -/
def splitTokens (command : Str) : List Str :=
  (command.splitOnP fun c => isWhitespace c || c == ';').filter (· ≠ [])

def isQuote (c : Char) : Bool := c == '\'' || c == '"'

variable (token : Str)

/-- The token is between two quotes of one kind. -/
def isBetweenQuotes : Bool :=
  decide (token.length ≥ 2) && token.head?.any isQuote && token.head? == token.getLast?

def trimOpens : Str := token.dropWhile (· == '(')

def stripToken : Str :=
  let token := trimOpens token
  if isBetweenQuotes token then token.tail.dropLast else token

/-- What is behind the last `/` of a token. -/
def runnerName : Str := (stripToken token).rtakeWhile (· != '/')

def isQuoted : Bool := isBetweenQuotes (trimOpens token)

def namesRepoRelativePath (cleaned : Str) : Bool :=
  decide ('/' ∈ cleaned) && cleaned.head? != some '/' && cleaned.head? != some '-'
    && decide ('=' ∉ cleaned)

def namesAbsolutePath (cleaned : Str) : Bool :=
  cleaned.head? == some '/' && decide ('=' ∉ cleaned)

/-! ## Globs in tokens -/

inductive TokenGlobs where
  | none
  | positive (glob : Str)
  | negative (glob : Str)
  | unprovable
  deriving DecidableEq, Repr

def hasGlobChars (token : Str) : Bool := token.any (· ∈ ['*', '?', '[', ']'])

/-- Strip one layer of quotes; the flag says that there was one.  Nothing where
    the quotes are ambiguous. -/
def dequote (token : Str) : Option (Str × Bool) :=
  match token.head?, token.getLast? with
  | some first, some last =>
    if !isQuote first && !isQuote last then
      if token.any isQuote then none else some (token, false)
    else if !isQuote first || !isQuote last || first != last || decide (token.length < 2) then none
    else
      let inner := token.tail.dropLast
      if first ∈ inner then none else some (inner, true)
  | _, _ => some (token, false)

def extractGlobToken (token : Str) : TokenGlobs :=
  let (key, value) := (splitOnce? ['='] token).getD ([], token)
  if key.any isQuote || hasGlobChars key then .unprovable
  else if value = [] then .none
  else
    match dequote value with
    | none => .unprovable
    | some (inner, quoted) =>
      if inner.head? = some '#' then
        if !quoted then if hasGlobChars inner then .unprovable else .none
        else if hasGlobChars inner.tail then .negative inner.tail
        else .none
      else if !hasGlobChars inner then .none
      else if !quoted then .unprovable
      else .positive inner

/-! ## Commands -/

structure CommandReads where
  positives : List Str
  negatives : List Str
  /-- Why the reads of the unit cannot be bounded. -/
  opacity : Option Str
  deriving DecidableEq, Repr

namespace CommandReads

def clear : CommandReads := ⟨[], [], none⟩

/-- The first reason stays. -/
def markOpaque (reads : CommandReads) (reason : Str) : CommandReads :=
  { reads with opacity := some (reads.opacity.getD reason) }

end CommandReads

def isOpaqueKind (kind : Str) : Bool :=
  eqIgnoreAsciiCase kind "node" || eqIgnoreAsciiCase kind "bun"

def pureCommands : List Str := ["true", "false", ":"]

def opaqueRunners : List Str := [
  "bun", "npm", "yarn", "pnpm", "node", "npx",
  "deno", "python", "python3", "mise", "make", "just",
  "task", "sh", "bash", "dash", "zsh", "fish",
  "pwsh", "powershell", "cmd", "xargs"]

def transparentCargoSubcommands : List Str := [
  "fmt", "clippy", "test", "nextest", "check", "deny",
  "audit"]

def isCargo (name : Str) : Bool := name == "cargo" || name == "mbx"

section
variable (unitId : Str)

/-- The reason for a unit: its id between the two texts. -/
def unitReason (behind : Str) : Str := "unit `" ++ unitId ++ '`' :: ' ' :: behind

/-- The tokens of one command; a token that proves nothing ends the scan. -/
def readTokens : List Str → CommandReads → CommandReads
  | [], reads => reads
  | token :: tokens, reads =>
    if (find? ".." token).isSome then
      reads.markOpaque (unitReason unitId "runs a command escaping the repository root (`..`)")
    else if runnerName token ∈ opaqueRunners then
      reads.markOpaque (unitReason unitId
        ("executes `" ++ runnerName token ++ "`, whose read set is unprovable"))
    else
      match extractGlobToken token with
      | .none =>
        let cleaned := stripToken token
        if !isQuoted token && namesRepoRelativePath cleaned then
          reads.markOpaque (unitReason unitId
            ("executes `" ++ cleaned ++ "`, whose read set is unprovable"))
        else if namesAbsolutePath cleaned then
          reads.markOpaque (unitReason unitId
            ("touches `" ++ cleaned ++ "`, which the scan cannot bound"))
        else readTokens tokens reads
      | .positive glob => readTokens tokens { reads with positives := reads.positives ++ [glob] }
      | .negative glob => readTokens tokens { reads with negatives := reads.negatives ++ [glob] }
      | .unprovable =>
        reads.markOpaque (unitReason unitId
          ("runs a command with argv the extractor cannot prove (`" ++ token ++ "`)"))

/-- Every `cargo` whose subcommand is not in the audited vocabulary. -/
def readSubcommands : List Str → CommandReads → CommandReads
  | [], reads => reads
  | name :: names, reads =>
    let subcommand := names.head?.getD []
    if isCargo name && decide (subcommand ∉ transparentCargoSubcommands) then
      readSubcommands names (reads.markOpaque (unitReason unitId
        ("runs `" ++ name ++ "` with subcommand `" ++ subcommand
          ++ "` outside the audited vocabulary, whose read set is unprovable")))
    else readSubcommands names reads

/-- The names run project code: a `run` that is not the test runner's. -/
def runsProjectCode (names : List Str) : Bool :=
  names.any isCargo && decide ("run".toList ∈ names)
    && !(names.zip names.tail).any fun pair => isCargo pair.1 && pair.2 == "nextest"

def analyzeCommand (reads : CommandReads) (command : Str) : CommandReads :=
  if command.any (· ∈ ['$', '`', '\\']) then
    reads.markOpaque (unitReason unitId
      "runs a command with expansion or escape syntax the extractor refuses to parse")
  else
    let tokens := splitTokens command
    let names := tokens.map runnerName
    let reads := if runsProjectCode names then
        reads.markOpaque (unitReason unitId "executes project code via a `run` command")
      else reads
    readTokens unitId tokens (readSubcommands unitId names reads)

def analyzeCommands (kind : Str) (commands : List Str) : CommandReads :=
  let firsts := commands.filterMap fun command => (splitTokens command).head?
  let reads := if isOpaqueKind kind && firsts.any fun first => runnerName first ∉ pureCommands then
      CommandReads.clear.markOpaque ("unit `" ++ unitId ++ "` (" ++ kind
        ++ ") runs package commands the scan cannot prove; "
        ++ "package scripts and bundlers may read files no watch names")
    else .clear
  commands.foldl (analyzeCommand unitId) reads

end

example : (analyzeCommands "docs" "docs"
    ["lint 'docs/**/*.md' '#docs/old/*'"]) =
      ⟨["docs/**/*.md"], ["docs/old/*"], none⟩ := by decide +kernel

end Velnor.Workflow

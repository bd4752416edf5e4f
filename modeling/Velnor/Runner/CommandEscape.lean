/-
  Printing a command and parsing it (workflow_command.rs).  The toolkit writes
  `%`, CR and LF of the data, and `:` and `,` of a property's value as well, as
  a percent sign and two digits; the parser takes these back by replacing one
  after the other over the whole text, the percent sign last.
-/
import Velnor.Runner.CommandLockstep

namespace Velnor.Runner

open Text

/-! ## Percent codes -/

/-- A character as it is written: `%` and the two digits of its code, if it has
    one. -/
def percentEncode (codes : List (Char × Char × Char)) (c : Char) : Str :=
  match codes.find? fun code => code.1 = c with
  | some (_, high, low) => ['%', high, low]
  | none => [c]

theorem replace_of_ne {a c : Char} (pat : Str) (ha : a ≠ '%') (s : Str) :
    replace ('%' :: pat) [c] (a :: s) = a :: replace ('%' :: pat) [c] s :=
  if_neg (by simp [ha.symm])

variable {c : Char} (value : Str) {codes : List (Char × Char × Char)}

/-- One replacement takes one code back. -/
theorem replace_percentEncode {pat : Str} {c high low : Char} (hpat : pat = ['%', high, low])
    (hpercent : ∃ code ∈ (c, high, low) :: codes, code.1 = '%')
    (hcodes : ∀ code ∈ codes, code.1 ≠ c ∧ code.2 ≠ (high, low) ∧ code.2.1 ≠ '%' ∧ code.2.2 ≠ '%')
    (s : Str) :
    replace pat [c] (s.flatMap (percentEncode ((c, high, low) :: codes)))
      = s.flatMap (percentEncode codes) := by
  subst hpat
  induction s with
  | nil => rfl
  | cons d s ih =>
    rw [List.flatMap_cons, List.flatMap_cons, ← ih, percentEncode, percentEncode, List.find?_cons]
    by_cases hd : c = d
    · have hnone : codes.find? (fun code => code.1 = d) = none :=
        List.find?_eq_none.mpr fun code hcode => by simpa [hd] using (hcodes code hcode).1
      simp [hd, hnone, replace, replaceFrom]
    simp only [hd, decide_false]
    cases hfind : codes.find? fun code => code.1 = d with
    | none =>
      refine replace_of_ne _ (fun hpercent' => ?_) _
      obtain ⟨code, hmem, hcode⟩ := hpercent
      rcases List.mem_cons.mp hmem with rfl | hmem
      · exact hd (hcode.trans hpercent'.symm)
      · simpa [hcode, hpercent'] using List.find?_eq_none.mp hfind code hmem
    | some code =>
      obtain ⟨-, hne, hhigh, hlow⟩ := hcodes code (List.mem_of_find?_eq_some hfind)
      have hother : ¬ ['%', high, low].isPrefixOf ('%' :: code.2.1 :: code.2.2 ::
          s.flatMap (percentEncode ((c, high, low) :: codes))) = true := by
        rintro h
        simp at h
        exact hne (Prod.ext h.1.symm h.2.symm)
      refine (if_neg hother).trans (congrArg _ ?_)
      exact (replace_of_ne _ hhigh _).trans (congrArg _ (replace_of_ne _ hlow _))

/-- A character with a code is not in what is written. -/
theorem notMem_percentEncode (hc : ∃ code ∈ codes, code.1 = c)
    (hcodes : ∀ code ∈ codes, c ∉ ['%', code.2.1, code.2.2]) (s : Str) :
    c ∉ s.flatMap (percentEncode codes) := by
  intro hmem
  obtain ⟨_, -, hd⟩ := List.mem_flatMap.mp hmem
  rw [percentEncode] at hd
  split at hd
  · rename_i hfind
    exact hcodes _ (List.mem_of_find?_eq_some hfind) hd
  · rename_i hnone
    obtain ⟨code, hcode, rfl⟩ := hc
    exact List.find?_eq_none.mp hnone code hcode (decide_eq_true (List.mem_singleton.mp hd))

def dataCodes : List (Char × Char × Char) := [('\r', '0', 'D'), ('\n', '0', 'A'), ('%', '2', '5')]

def propertyCodes : List (Char × Char × Char) := (':', '3', 'A') :: (',', '2', 'C') :: dataCodes

def escapeData (value : Str) : Str := value.flatMap (percentEncode dataCodes)

def escapeProperty (value : Str) : Str := value.flatMap (percentEncode propertyCodes)

theorem unescapeData_escapeData : unescapeData (escapeData value) = value := by
  rw [unescapeData, escapeData, dataCodes, replace_percentEncode, replace_percentEncode,
    replace_percentEncode]
  · exact List.flatMap_singleton' value
  all_goals decide

theorem unescapeProperty_escapeProperty : unescapeProperty (escapeProperty value) = value := by
  rw [unescapeProperty, escapeProperty, propertyCodes, replace_percentEncode, replace_percentEncode]
  · exact unescapeData_escapeData value
  all_goals decide

/-! ## Command lines -/

def commandProperty (entry : Str × Str) : Str :=
  entry.1 ++ ['='] ++ escapeProperty entry.2

def commandHeader (name : Str) : List (Str × Str) → Str
  | [] => name
  | properties => name ++ [' '] ++ [','].intercalate (properties.map commandProperty)

/-- The line the toolkit prints for a command. -/
def commandLine (command : WorkflowCommand) : Str :=
  [':', ':'] ++ (commandHeader command.name command.properties ++ [':', ':']
    ++ escapeData command.value)

theorem notMem_of_registered {name : Str} (h : isRegisteredCommand name = true)
    (hc : c = ' ' ∨ c = ':') : c ∉ name := by
  intro hmem
  obtain ⟨command, hcommand, heq⟩ := List.any_eq_true.mp h
  have hlower : c.toLower ∈ toAsciiLowercase command := by
    rw [eqIgnoreAsciiCase_iff.mp heq]
    exact List.mem_map_of_mem hmem
  have hfree : ∀ command ∈ registeredCommands,
      ' '.toLower ∉ toAsciiLowercase command ∧ ':'.toLower ∉ toAsciiLowercase command := by decide
  rcases hc with rfl | rfl
  · exact (hfree command hcommand).1 hlower
  · exact (hfree command hcommand).2 hlower

/-- Entries of different keys are kept as they are put in. -/
theorem foldl_insertEntry {map entries : List (Str × Str)}
    (h : ((map ++ entries).map Prod.fst).Nodup) :
    entries.foldl (fun map entry => insertEntry map entry.1 entry.2) map = map ++ entries := by
  induction entries generalizing map with
  | nil => exact (List.append_nil map).symm
  | cons entry _ ih =>
    have hkeep : insertEntry map entry.1 entry.2 = map ++ [entry] := by
      rw [insertEntry, List.filter_eq_self.mpr]
      intro _ hother
      rw [List.map_append, List.nodup_append] at h
      exact decide_eq_true (h.2.2 _ (List.mem_map_of_mem hother) _ List.mem_cons_self)
    rw [List.foldl_cons, hkeep, ih]
    · rw [List.append_assoc]
      rfl
    · rwa [List.append_assoc]

theorem notMem_intercalate {c d : Char} (hne : c ≠ d) {pieces : List Str}
    (h : ∀ piece ∈ pieces, c ∉ piece) : c ∉ [d].intercalate pieces := by
  induction pieces with
  | nil => exact List.not_mem_nil
  | cons _ pieces ih =>
    rw [List.forall_mem_cons] at h
    cases pieces with
    | nil => simpa using h.1
    | cons => simp [List.intercalate_cons_cons, h.1, hne, ih h.2]

section
variable {properties : List (Str × Str)}
  (hkeys : ∀ entry ∈ properties, ∀ c ∈ [',', '=', ':'], c ∉ entry.1)
include hkeys

theorem notMem_property {c : Char} (hc : c = ',' ∨ c = ':') :
    ∀ property ∈ properties.map commandProperty, c ∉ property := by
  simp only [List.mem_map, forall_exists_index, and_imp, forall_apply_eq_imp_iff₂]
  intro entry hentry
  have hkey := hkeys entry hentry c (by rcases hc with rfl | rfl <;> decide)
  have hvalue : c ∉ escapeProperty entry.2 := by
    rcases hc with rfl | rfl <;> exact notMem_percentEncode (by decide) (by decide) _
  rcases hc with rfl | rfl <;> simp [commandProperty, hkey, hvalue]

theorem parseProperties_intercalate (hsome : properties ≠ [])
    (hdistinct : (properties.map Prod.fst).Nodup) :
    parseProperties ([','].intercalate (properties.map commandProperty)) = properties := by
  rw [parseProperties, List.splitOn_intercalate]
  · rw [List.foldl_map]
    refine (List.foldl_ext _ _ [] fun map entry hentry => ?_).trans (foldl_insertEntry hdistinct)
    rw [commandProperty, splitOnce?_append (find?_of_notMem (hkeys entry hentry '=' (by decide)))]
    exact congrArg (insertEntry map entry.1) (unescapeProperty_escapeProperty entry.2)
  · exact notMem_property hkeys (.inl rfl)
  · simpa using hsome

/-- The header has no colon, and is cut at its first blank. -/
theorem commandHeader_parts {name : Str} (hname : isRegisteredCommand name = true)
    (hdistinct : (properties.map Prod.fst).Nodup) :
    ':' ∉ commandHeader name properties ∧ headerName (commandHeader name properties) = name
      ∧ headerProperties (commandHeader name properties) = properties := by
  have hblank : ' ' ∉ name := notMem_of_registered hname (.inl rfl)
  have hcolon : ':' ∉ name := notMem_of_registered hname (.inr rfl)
  cases properties with
  | nil =>
    have hnone : splitOnce? [' '] name = none :=
      splitOnce?_eq_none_iff.mpr fun h => hblank (h.subset (List.mem_singleton_self ' '))
    simp only [commandHeader, headerName, headerProperties, hnone]
    exact ⟨hcolon, trivial, trivial⟩
  | cons =>
    simp only [commandHeader, headerName, headerProperties,
      splitOnce?_append (find?_of_notMem hblank)]
    refine ⟨?_, trivial, parseProperties_intercalate hkeys (List.cons_ne_nil _ _) hdistinct⟩
    have hentries := notMem_intercalate (d := ',') (by decide) (notMem_property hkeys (.inr rfl))
    simpa [hcolon] using hentries

end

/-- A printed command is parsed back, whatever the values of its properties and
    its data are. -/
theorem parse_commandLine (command : WorkflowCommand) (stoppedToken : Option Str)
    (hname : isRegisteredCommand command.name = true)
    (hdistinct : (command.properties.map Prod.fst).Nodup)
    (hkeys : ∀ entry ∈ command.properties, ∀ c ∈ [',', '=', ':'], c ∉ entry.1) :
    parseWorkflowCommand (commandLine command) stoppedToken = some command := by
  obtain ⟨hcolon, hheader, hproperties⟩ := commandHeader_parts hkeys hname hdistinct
  have hparts : commandParts? (commandLine command)
      = some (commandHeader command.name command.properties, escapeData command.value) := by
    have hsplit : splitOnce? [':', ':'] (commandHeader command.name command.properties
        ++ [':', ':'] ++ escapeData command.value) = _ := splitOnce?_append (find?_of_notMem hcolon)
    simpa [commandParts?, commandLine, trimStart, isWhitespace, List.dropPrefix?] using hsplit
  rw [parseWorkflowCommand_recognised hparts (.inl (hheader.symm ▸ hname)), hheader, hproperties,
    unescapeData_escapeData]

/-- Text that looks like an escape is kept. -/
theorem parse_commandLine_notice :
    commandLine ⟨"notice", [("file", "a,%3A")], "50%\r\n::x"⟩
        = "::notice file=a%2C%253A::50%25%0D%0A::x"
      ∧ parseWorkflowCommand "::notice file=a%2C%253A::50%25%0D%0A::x" none
        = some ⟨"notice", [("file", "a,%3A")], "50%\r\n::x"⟩ := by
  have hline : commandLine ⟨"notice", [("file", "a,%3A")],
      "50%\r\n::x"⟩ = "::notice file=a%2C%253A::50%25%0D%0A::x" := by decide +kernel
  exact ⟨hline, hline ▸ parse_commandLine _ none (by decide) (by decide) (by simp)⟩

end Velnor.Runner

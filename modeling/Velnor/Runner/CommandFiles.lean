/-
  The parser of command files such as `GITHUB_OUTPUT` (command_files.rs): one
  record is `name=value` on a line, or `name<<D`, the value over any number of
  lines, and `D` on a line of its own.

  Positions are counted in characters.  The source counts bytes, but only ever
  cuts at a newline, at `=` or at `<<`.

  The main result is that a file written from records is read back as exactly
  those records, so no value can end its own record early.
-/
import Velnor.Text.Str

namespace Velnor.Runner

open Text List

/-! ## The parser -/

structure FileCommand where
  name : Str
  value : Str
  deriving DecidableEq, Repr

inductive CommandFileError where
  | emptyNameOrDelimiter (line : Str)
  | delimiterNotFound (delimiter : Str)
  | eofMarkerMissingNewLine
  | invalidFormat (line : Str)
  deriving DecidableEq, Repr

def CommandFileError.message : CommandFileError → String
  | .emptyNameOrDelimiter line =>
    "Invalid format '" ++ String.ofList line
      ++ "'. Name must not be empty and delimiter must not be empty"
  | .delimiterNotFound delimiter =>
    "Invalid value. Matching delimiter not found '" ++ String.ofList delimiter ++ "'"
  | .eofMarkerMissingNewLine => "Invalid value. EOF marker missing new line."
  | .invalidFormat line => "Invalid format '" ++ String.ofList line ++ "'"

structure CommandFileLine where
  contents : Str
  newline : Str
  deriving DecidableEq, Repr

/-- The line at `index`, and the index after its newline. -/
def readLine (windows : Bool) (contents : Str) (index : Nat) : Option (CommandFileLine × Nat) :=
  if contents.length ≤ index then none
  else
    match find? ['\n'] (contents.drop index) with
    | none => some (⟨contents.drop index, []⟩, contents.length)
    | some offset =>
      let lfIndex := index + offset
      -- CRLF counts as one newline in Windows builds only
      let crlf := windows && decide (index < lfIndex) && contents[lfIndex - 1]? == some '\r'
      let lineEnd := if crlf then lfIndex - 1 else lfIndex
      some (⟨contents.extract index lineEnd, contents.extract lineEnd (lfIndex + 1)⟩, lfIndex + 1)

variable {windows : Bool} {contents : Str} {index next : Nat}

theorem lt_of_readLine {line : CommandFileLine}
    (h : readLine windows contents index = some (line, next)) :
    index < next ∧ index < contents.length := by
  unfold readLine at h
  split_ifs at h with hend
  split at h
  · cases Option.some.inj h
    omega
  · cases Option.some.inj h
    omega

/-- The lines of a heredoc value from `index` on, up to the delimiter:
    `contents[value_start..value_end]` and the index after the delimiter. -/
def readValue (windows : Bool) (contents delimiter : Str) (valueStart valueEnd index : Nat) :
    Except CommandFileError (Str × Nat) :=
  match _h : readLine windows contents index with
  | none => .error (.delimiterNotFound delimiter)
  | some (line, next) =>
    if line.contents = delimiter then .ok (contents.extract valueStart valueEnd, next)
    else if line.newline = [] then .error .eofMarkerMissingNewLine
    else readValue windows contents delimiter valueStart (next - line.newline.length) next
termination_by contents.length - index
decreasing_by
  have := lt_of_readLine _h
  omega

/-- The record that starts with this line, and the index after it. -/
def readRecord (windows : Bool) (contents line : Str) (index : Nat) :
    Except CommandFileError (FileCommand × Nat) :=
  let equalsFirst := match find? ['='] line, find? ['<', '<'] line with
    | some equalsIndex, some heredocIndex =>
      if equalsIndex < heredocIndex then some equalsIndex else none
    | _, _ => none
  match equalsFirst with
  | some equalsIndex => .ok (⟨line.take equalsIndex, line.drop (equalsIndex + 1)⟩, index)
  | none =>
    match splitOnce? ['<', '<'] line with
    | some (name, delimiter) =>
      if name = [] ∨ delimiter = [] then .error (.emptyNameOrDelimiter line)
      else
        (readValue windows contents delimiter index index index).map
          fun (value, next) => (⟨name, value⟩, next)
    | none =>
      match splitOnce? ['='] line with
      | some (name, value) => .ok (⟨name, value⟩, index)
      | none => .error (.invalidFormat line)

theorem le_of_readValue {delimiter value : Str} {valueStart valueEnd : Nat}
    (h : readValue windows contents delimiter valueStart valueEnd index = .ok (value, next)) :
    index ≤ next := by
  fun_induction readValue windows contents delimiter valueStart valueEnd index with
  | case1 => cases h
  | case2 _ _ _ _ hline =>
    cases Except.ok.inj h
    exact (lt_of_readLine hline).1.le
  | case3 => cases h
  | case4 _ _ _ _ hline _ _ ih => exact (lt_of_readLine hline).1.le.trans (ih h)

theorem le_of_readRecord {line : Str} {command : FileCommand}
    (h : readRecord windows contents line index = .ok (command, next)) : index ≤ next := by
  unfold readRecord at h
  dsimp only at h
  split at h
  · cases Except.ok.inj h
    exact le_rfl
  split at h
  · split_ifs at h
    rename_i delimiter _ _
    cases hvalue : readValue windows contents delimiter index index index with
    | error =>
      rw [hvalue] at h
      cases h
    | ok =>
      rw [hvalue] at h
      cases Except.ok.inj h
      exact le_of_readValue hvalue
  · split at h
    · cases Except.ok.inj h
      exact le_rfl
    · cases h

/-- The loop of `parse_command_file_contents_for_os`, from `index` on. -/
def parseFrom (windows : Bool) (contents : Str) (index : Nat) :
    Except CommandFileError (List FileCommand) :=
  match _hline : readLine windows contents index with
  | none => .ok []
  | some (line, next) =>
    if line.contents = [] then parseFrom windows contents next
    else
      match _hrecord : readRecord windows contents line.contents next with
      | .error error => .error error
      | .ok (command, after) => (parseFrom windows contents after).map (command :: ·)
termination_by contents.length - index
decreasing_by
  · have := lt_of_readLine _hline
    omega
  · have := lt_of_readLine _hline
    have := le_of_readRecord _hrecord
    omega

def parseCommandFileContentsForOs (windows : Bool) (contents : Str) :
    Except CommandFileError (List FileCommand) :=
  parseFrom windows contents 0

def byteOrderMark : Char := '\uFEFF'

/-- A byte-order mark in front is not part of the first name. -/
def parseCommandFileContents (windows : Bool) (contents : Str) :
    Except CommandFileError (List FileCommand) :=
  parseCommandFileContentsForOs windows
    (if contents.head? = some byteOrderMark then contents.tail else contents)

/-! ## Files written from records -/

/-- One record of a command file, as a script writes it. -/
inductive FileRecord where
  | single (name value : Str)
  | heredoc (name delimiter value : Str)
  deriving DecidableEq, Repr

namespace FileRecord

def name : FileRecord → Str
  | .single name _ => name
  | .heredoc name _ _ => name

/-- What the record says. -/
def command : FileRecord → FileCommand
  | .single name value => ⟨name, value⟩
  | .heredoc name _ value => ⟨name, value⟩

/-- How the record is written. -/
def text : FileRecord → Str
  | .single name value => name ++ ['='] ++ value ++ ['\n']
  | .heredoc name delimiter value =>
    name ++ ['<', '<'] ++ delimiter ++ ['\n'] ++ (value ++ ['\n'] ++ (delimiter ++ ['\n']))

/-- A name that cannot be mistaken for the start of a value. -/
structure NameOk (name : Str) : Prop where
  nonempty : name ≠ []
  newline : '\n' ∉ name
  equals : '=' ∉ name
  heredoc : ¬ ['<', '<'] <:+: name
  angle : name.getLast? ≠ some '<'

/-- The value fits the way it is written. -/
def ValueOk : FileRecord → Prop
  | .single _ value => '\n' ∉ value
  | .heredoc _ delimiter value => delimiter ∉ value.splitOn '\n'

instance : (record : FileRecord) → Decidable record.ValueOk
  | .single _ value => inferInstanceAs (Decidable ('\n' ∉ value))
  | .heredoc _ delimiter value => inferInstanceAs (Decidable (delimiter ∉ value.splitOn '\n'))

/-- The delimiter is a line the parser takes as one. -/
def DelimiterOk : FileRecord → Prop
  | .single _ _ => True
  | .heredoc _ delimiter _ => delimiter ≠ [] ∧ '\n' ∉ delimiter

end FileRecord

/-! ## Lines -/

section Lines

variable {line rest : Str}

theorem readLine_of_drop (h : contents.drop index = line ++ ['\n'] ++ rest) (hline : '\n' ∉ line) :
    readLine false contents index = some (⟨line, ['\n']⟩, index + line.length + 1) := by
  have hlength : ¬ contents.length ≤ index := by
    intro hle
    rw [drop_eq_nil_of_le hle] at h
    simp at h
  have hnewline : contents.drop (index + line.length) = ['\n'] ++ rest := by
    rw [← drop_drop, h, append_assoc, drop_left]
  rw [readLine, if_neg hlength, h, find?_of_notMem hline]
  simp [extract_eq_take_drop, h, hnewline]

theorem drop_after_line (h : contents.drop index = line ++ ['\n'] ++ rest) :
    contents.drop (index + line.length + 1) = rest := by
  rw [Nat.add_assoc, ← drop_drop, h, ← length_singleton (a := '\n'), ← length_append, drop_left]

end Lines

/-! ## Heredoc values -/

section Values

variable {delimiter rest : Str}

theorem readValue_line {line : Str} {valueStart index : Nat} (valueEnd : Nat)
    (h : contents.drop index = line ++ ['\n'] ++ rest) (hline : '\n' ∉ line)
    (hother : line ≠ delimiter) :
    readValue false contents delimiter valueStart valueEnd index
      = readValue false contents delimiter valueStart (index + line.length)
          (index + line.length + 1) := by
  rw [readValue, readLine_of_drop h hline]
  exact (if_neg hother).trans (if_neg (cons_ne_nil _ _))

/-- Whatever lines the value has, the loop reads up to the delimiter and cuts
    the value before the newline that ends it. -/
theorem readValue_of_drop (hdelimiter : '\n' ∉ delimiter) (valueStart : Nat) (value : Str) :
    ∀ valueEnd index,
      contents.drop index = value ++ ['\n'] ++ (delimiter ++ ['\n'] ++ rest) →
      delimiter ∉ value.splitOn '\n' →
      readValue false contents delimiter valueStart valueEnd index
        = .ok (contents.extract valueStart (index + value.length),
          index + value.length + 1 + delimiter.length + 1) := by
  -- the induction is on the lines of the value, first to last
  induction hlength : value.length using Nat.strong_induction_on generalizing value with
  | _ n ih =>
    subst hlength
    intro valueEnd index hdrop hfree
    by_cases hmem : '\n' ∈ value
    · obtain ⟨line, more, rfl, hline⟩ := eq_append_cons_of_mem hmem
      have hsplit : (line ++ '\n' :: more).splitOn '\n' = line :: more.splitOn '\n' :=
        splitOnP_append_cons_of_forall_mem
          (by simpa using fun c hc => ne_of_mem_of_not_mem hc hline) _ (by simp) _
      rw [hsplit, mem_cons, not_or] at hfree
      have hhead : contents.drop index
          = line ++ ['\n'] ++ (more ++ ['\n'] ++ (delimiter ++ ['\n'] ++ rest)) := by
        simpa using hdrop
      have hlength : (line ++ '\n' :: more).length = line.length + 1 + more.length := by
        simp only [length_append, length_cons]
        omega
      rw [readValue_line valueEnd hhead hline (Ne.symm hfree.1),
        ih more.length (by omega) more rfl _ _ (drop_after_line hhead) hfree.2, hlength]
      simp only [Nat.add_assoc]
    · rw [splitOn_eq_singleton hmem, mem_singleton] at hfree
      rw [readValue_line valueEnd hdrop hmem (Ne.symm hfree),
        readValue, readLine_of_drop (drop_after_line hdrop) hdelimiter]
      exact if_pos rfl

end Values

/-! ## Single records -/

section Records

variable {line name value delimiter tail : Str}

/-- Inside a name no `<<` starts, whatever follows the name. -/
theorem FileRecord.NameOk.not_occurs (h : NameOk name) {j : Nat} (hj : j < name.length) :
    ¬ Occurs ['<', '<'] (name ++ tail) j := by
  intro hocc
  obtain ⟨_, hrest⟩ := hocc.2
  rw [drop_append_of_le_length hj.le, drop_eq_getElem_cons hj] at hrest
  obtain ⟨hfirst, hsecond⟩ := cons.inj hrest
  cases hdrop : name.drop (j + 1) with
  | nil =>
    -- the first angle is the name's last character
    apply h.angle
    have hlast : j = name.length - 1 := by
      have := drop_eq_nil_iff.mp hdrop
      omega
    subst hlast
    rw [getLast?_eq_getElem?, getElem?_eq_getElem (by omega), ← hfirst]
  | cons _ more =>
    apply h.heredoc
    rw [hdrop] at hsecond
    cases hsecond
    refine ⟨name.take j, more, ?_⟩
    calc name.take j ++ ['<', '<'] ++ more = name.take j ++ name.drop j := by
          rw [drop_eq_getElem_cons hj, hdrop, ← hfirst]
          simp
      _ = name := take_append_drop j name

theorem le_of_occurs_singleton {c : Char} (hc : c ∉ name) {i : Nat}
    (h : Occurs [c] (name ++ tail) i) : name.length ≤ i := by
  by_contra hlt
  obtain ⟨_, hrest⟩ := h.2
  rw [drop_append_of_le_length (by omega), drop_eq_getElem_cons (by omega)] at hrest
  obtain ⟨hc', -⟩ := cons.inj hrest
  exact hc (hc' ▸ getElem_mem (by omega))

theorem readRecord_single (hname : FileRecord.NameOk name) :
    readRecord false contents (name ++ ['='] ++ value) index = .ok (⟨name, value⟩, index) := by
  have hequals : find? ['='] (name ++ ['='] ++ value) = some name.length :=
    find?_of_notMem hname.equals
  cases hheredoc : find? ['<', '<'] (name ++ ['='] ++ value) with
  | none =>
    simp only [readRecord, hequals, hheredoc, splitOnce?_append hequals]
    rw [splitOnce?_eq_none_iff.mpr (find?_eq_none_iff.mp hheredoc)]
  | some heredocIndex =>
    have hocc := (find?_eq_some_iff.mp hheredoc).1
    -- `<<` can only stand inside the value
    have hlt : name.length < heredocIndex := by
      by_contra hle
      rcases Nat.lt_or_eq_of_le (not_lt.mp hle) with hlt | rfl
      · rw [append_assoc] at hocc
        exact hname.not_occurs hlt hocc
      · obtain ⟨_, hrest⟩ := hocc.2
        rw [append_assoc, drop_left] at hrest
        cases hrest
    simp only [readRecord, hequals, hheredoc, if_pos hlt]
    have hlength : name.length + 1 = (name ++ ['=']).length := by simp
    rw [hlength, drop_left, append_assoc, take_left]

theorem readRecord_heredoc {next : Nat} (hname : FileRecord.NameOk name)
    (hnonempty : delimiter ≠ [])
    (hread : readValue false contents delimiter index index index = .ok (value, next)) :
    readRecord false contents (name ++ ['<', '<'] ++ delimiter) index
      = .ok (⟨name, value⟩, next) := by
  have hheredoc : find? ['<', '<'] (name ++ ['<', '<'] ++ delimiter) = some name.length := by
    refine find?_eq_some_iff.mpr ⟨occurs_append _ _ _, fun j hj => ?_⟩
    rw [append_assoc]
    exact hname.not_occurs hj
  have hnot : ¬ (name = [] ∨ delimiter = []) := by
    rintro (h | h)
    · exact hname.nonempty h
    · exact hnonempty h
  cases hequals : find? ['='] (name ++ ['<', '<'] ++ delimiter) with
  | none =>
    simp only [readRecord, hequals, splitOnce?_append hheredoc, if_neg hnot, hread]
    rfl
  | some equalsIndex =>
    have hocc := (find?_eq_some_iff.mp hequals).1
    rw [append_assoc] at hocc
    have hle : ¬ equalsIndex < name.length := not_lt.mpr (le_of_occurs_singleton hname.equals hocc)
    simp only [readRecord, hequals, hheredoc, if_neg hle, splitOnce?_append hheredoc, if_neg hnot,
      hread]
    rfl

/-- A line with a record on it: the record, then the rest. -/
theorem parseFrom_record {next after : Nat} {newline : Str} {command : FileCommand}
    (hline : readLine false contents index = some (⟨line, newline⟩, next)) (hnonempty : line ≠ [])
    (hrecord : readRecord false contents line next = .ok (command, after)) :
    parseFrom false contents index = (parseFrom false contents after).map (command :: ·) := by
  rw [parseFrom, hline]
  simp only [if_neg hnonempty]
  rw [hrecord]

end Records

/-! ## Whole files -/

namespace FileRecord

variable {rest : Str}

/-- Reading one written record leaves the file after it. -/
theorem parseFrom_text {record : FileRecord} (hname : NameOk record.name) (hvalue : record.ValueOk)
    (hdelimiter : record.DelimiterOk) (hdrop : contents.drop index = record.text ++ rest) :
    parseFrom false contents index
      = (parseFrom false contents (index + record.text.length)).map (record.command :: ·) := by
  cases record with
  | single name value =>
    change NameOk name at hname
    change '\n' ∉ value at hvalue
    have hline : contents.drop index = name ++ ['='] ++ value ++ ['\n'] ++ rest := hdrop
    have hfree : '\n' ∉ name ++ ['='] ++ value := by
      simp [hname.newline, hvalue]
    rw [parseFrom_record (readLine_of_drop hline hfree) (by simp) (readRecord_single hname)]
    congr 2
    simp only [text, length_append, length_singleton]
    omega
  | heredoc name delimiter value =>
    change NameOk name at hname
    obtain ⟨hnonempty, hdfree⟩ := hdelimiter
    have hline : contents.drop index = name ++ ['<', '<'] ++ delimiter ++ ['\n']
        ++ (value ++ ['\n'] ++ (delimiter ++ ['\n'] ++ rest)) := by
      simpa [text] using hdrop
    have hfree : '\n' ∉ name ++ ['<', '<'] ++ delimiter := by
      simp [hname.newline, hdfree]
    -- the value starts on the next line, and the cut gives it back
    have hdropValue := drop_after_line hline
    have hread := readValue_of_drop hdfree
      (index + (name ++ ['<', '<'] ++ delimiter).length + 1) value
      (index + (name ++ ['<', '<'] ++ delimiter).length + 1) _ hdropValue hvalue
    rw [extract_eq_take_drop, hdropValue, Nat.add_sub_cancel_left, append_assoc value,
      take_left] at hread
    rw [parseFrom_record (readLine_of_drop hline hfree) (by simp)
      (readRecord_heredoc hname hnonempty hread)]
    congr 2
    simp only [text, length_append, length_singleton]
    omega

/-- A file from `index` on that is written from records is read as them. -/
theorem parseFrom_flatMap {records : List FileRecord}
    (hvalid : ∀ record ∈ records, NameOk record.name ∧ record.ValueOk ∧ record.DelimiterOk) :
    ∀ index, contents.drop index = records.flatMap text →
      parseFrom false contents index = .ok (records.map command) := by
  induction records with
  | nil =>
    intro _ hdrop
    rw [parseFrom, readLine, if_pos (drop_eq_nil_iff.mp hdrop)]
    rfl
  | cons record records ih =>
    intro index hdrop
    obtain ⟨hname, hvalue, hdelimiter⟩ := hvalid record mem_cons_self
    rw [flatMap_cons] at hdrop
    have hnext : contents.drop (index + record.text.length) = records.flatMap text := by
      rw [← drop_drop, hdrop, drop_left]
    rw [parseFrom_text hname hvalue hdelimiter hdrop,
      ih (fun r hr => hvalid r (mem_cons_of_mem _ hr)) _ hnext]
    rfl

theorem head?_text_append {record : FileRecord} (hname : record.name ≠ []) (rest : Str) :
    (record.text ++ rest).head? = record.name.head? := by
  obtain ⟨c, tail, hcons⟩ := exists_cons_of_ne_nil hname
  cases record with
  | single name value | heredoc name delimiter value =>
    obtain rfl : name = c :: tail := hcons
    rfl

end FileRecord

/-- A command file written from records, on lines that end in LF, is read back
    as exactly those records. -/
theorem command_file_exact (records : List FileRecord)
    (hvalid : ∀ record ∈ records,
      FileRecord.NameOk record.name ∧ record.ValueOk ∧ record.DelimiterOk)
    (hmark : ∀ record, records.head? = some record → record.name.head? ≠ some byteOrderMark) :
    parseCommandFileContents false (records.flatMap FileRecord.text)
      = .ok (records.map FileRecord.command) := by
  have hhead : (records.flatMap FileRecord.text).head? ≠ some byteOrderMark := by
    cases records with
    | nil => simp
    | cons record =>
      rw [flatMap_cons, FileRecord.head?_text_append (hvalid record mem_cons_self).1.nonempty]
      exact hmark record rfl
  rw [parseCommandFileContents, if_neg hhead]
  exact FileRecord.parseFrom_flatMap hvalid 0 rfl

/-- A value that looks like two further records stays one value. -/
theorem command_file_exact_injection :
    parseCommandFileContents false ("a=1<<2\nb<<EOF\nc=2\nd<<EOF \n\nEOF\n")
      = .ok [⟨"a", "1<<2"⟩, ⟨"b", "c=2\nd<<EOF \n"⟩] := by
  refine command_file_exact [.single "a" "1<<2", .heredoc "b" "EOF" "c=2\nd<<EOF \n"] ?_ ?_
  · intro _ hrecord
    rcases mem_pair.mp hrecord with rfl | rfl
    · exact ⟨⟨by decide, by decide, by decide, by decide, by decide⟩, by decide, trivial⟩
    · exact ⟨⟨by decide, by decide, by decide, by decide, by decide⟩, by decide, by decide,
        by decide⟩
  · intro _ hrecord
    cases hrecord
    decide

/-- An empty delimiter is refused, so such a record is not read back. -/
theorem empty_delimiter_refused :
    FileRecord.NameOk ['n'] ∧ (FileRecord.heredoc ['n'] [] ['x']).ValueOk
      ∧ parseCommandFileContents false (FileRecord.heredoc ['n'] [] ['x']).text
        = .error (.emptyNameOrDelimiter ['n', '<', '<']) := by
  exact ⟨⟨by decide, by decide, by decide, by decide, by decide⟩, by decide, by decide +kernel⟩

end Velnor.Runner

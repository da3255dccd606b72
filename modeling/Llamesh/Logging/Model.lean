import Llamesh.Library.FileOps
import Llamesh.Library.Terminated
import Llamesh.Library.Text
import Llamesh.Library.Utf8

/-!
# Preparing the day's log file

The three steps of `init` (`src/logging.rs:18–30`) before the appender opens the
day's file: `remove_incomplete_copies`, `reopen_compressed_log` and
`adopt_next_day_log` (`97–215`). A start is the list of the operations it does on
the files, each of which succeeds; a cut leaves a first part of them done. The
decoder of compressed files and the parser of entries are parameters.
-/

namespace Llamesh.Logging

open FileOps Terminated Text

/-- The name of a file in the log directory. -/
abbrev Name := List Char

/-- `\n`. -/
def newline : UInt8 := 10

/-- `\r`. -/
def carriageReturn : UInt8 := 13

/-- A date as `%Y-%m-%d` writes it. -/
structure Day where
  text : List Char
  length_eq : text.length = 10
  plain : ∀ c ∈ text, (c.isDigit || c == '-') = true

/-- What a start finds in its configuration and clock, with the code it calls. -/
structure Startup where
  filename : Name
  compression : Bool
  today : Day
  nextDay : Day
  days_ne : today.text ≠ nextDay.text
  /-- What `MultiGzDecoder` yields, and whether it reaches the end without an error. -/
  gunzip : List UInt8 → List UInt8 × Bool
  /-- The text of the `timestamp` of an entry, if it is a JSON object with one. -/
  timestamp : List Char → Option (List Char)
  timestamp_nil : timestamp [] = none

namespace Startup

variable (s : Startup)

/-- `<filename>.<day>`. -/
def current : Name := s.filename ++ '.' :: s.today.text

/-- `<filename>.<day>.gz`. -/
def compressed : Name := s.current ++ ".gz".toList

/-- `<filename>.<next_day>`. -/
def next : Name := s.filename ++ '.' :: s.nextDay.text

/-- `<filename>.<day>.restoring`. -/
def restoring : Name := s.current ++ ".restoring".toList

/-- `<filename>.<day>.merging`. -/
def merging : Name := s.current ++ ".merging".toList

/-- The entry is stamped on the day. `src/logging.rs:184–187`. -/
def stampedToday (entry : List Char) : Bool :=
  match s.timestamp entry with
  | some stamp => s.today.text.isPrefixOf stamp
  | none => false

end Startup

/-! ### Lines of a file -/

/-- `String::from_utf8`. -/
def fromUtf8 (bytes : List UInt8) : Option (List Char) :=
  let cs := fromUtf8Lossy bytes
  if utf8Encode cs = bytes then some cs else none

/-- `str::trim_end_matches` at line endings. -/
def trimLineEnd (cs : List Char) : List Char := cs.rdropWhile fun c => c == '\r' || c == '\n'

/-- The first line of a file that exists; `none` where it is not valid UTF-8. The line feed that
`read_line` reads is trimmed in any case. `src/logging.rs:219–228`. -/
def firstLine (content : List UInt8) : Option (List Char) :=
  (fromUtf8 (content.takeWhile (· ≠ newline))).map trimLineEnd

/-- `candidate.strip_suffix(b"\r").unwrap_or(&candidate)`. -/
def stripCarriageReturn (candidate : List UInt8) : List UInt8 :=
  if candidate.getLast? = some carriageReturn then candidate.dropLast else candidate

/-- Whether a file has the line. `src/logging.rs:231–244`. -/
def containsLine (content : Option (List UInt8)) (line : List Char) : Bool :=
  match content with
  | none => false
  | some bytes =>
    (lines newline bytes).any fun candidate => stripCarriageReturn candidate == utf8Encode line

/-! ### The operations of a start -/

/-- The names of incomplete copies. `src/logging.rs:101–112`. -/
def isCopy (filename name : Name) : Bool :=
  match stripPrefix (filename ++ ['.']) name with
  | none => false
  | some rest =>
    match splitOnce '.' rest with
    | none => false
    | some (day, suffix) =>
      (suffix == "restoring".toList || suffix == "merging".toList) && day.length == 10 &&
        day.all fun c => c.isDigit || c == '-'

/-- How a copy is cut into writes. -/
abbrev Chunking := { cut : List UInt8 → List (List UInt8) // ∀ bytes, (cut bytes).flatten = bytes }

/-- What a start leaves open: the order in which the directory is read and the sizes of the
writes. -/
structure Choices where
  order : { f : List Name → List Name // ∀ names, (f names).Perm names }
  restored : Chunking
  existing : Chunking
  adopted : Chunking

section

variable (s : Startup) (choices : Choices)

/-- Removes the copies that a crash has left incomplete. `src/logging.rs:97–116`. -/
def removeIncompleteCopies (files : Files Name UInt8) : List (Op Name UInt8) :=
  ((choices.order.1 files.keys).filter (isCopy s.filename)).map .remove

/-- Takes up the compressed log of the day again. `src/logging.rs:127–155`. -/
def reopenCompressedLog (files : Files Name UInt8) : List (Op Name UInt8) :=
  if s.current ∈ files then []
  else
    match files.lookup s.compressed with
    | none => []
    | some bytes =>
      let (content, complete) := s.gunzip bytes
      writeChunks s.restoring (choices.restored.1 content) ++
        if complete then [.rename s.restoring s.current, .remove s.compressed]
        else [.remove s.restoring]

/-- Takes over a log that was begun for the next day. `src/logging.rs:174–215`. -/
def adoptNextDayLog (files : Files Name UInt8) : List (Op Name UInt8) :=
  match files.lookup s.next with
  | none => []
  | some content =>
    match firstLine content with
    | none => []
    | some firstEntry =>
      if !s.stampedToday firstEntry then []
      else
        (if containsLine (files.lookup s.current) firstEntry then []
        else
          writeChunks s.merging
              (choices.existing.1 ((files.lookup s.current).getD []) ++
                choices.adopted.1 content) ++
            [.rename s.merging s.current]) ++
        [.remove s.next]

/-- The three steps one after the other. `src/logging.rs:25–30`. -/
def start (files : Files Name UInt8) : List (Op Name UInt8) :=
  let removals := removeIncompleteCopies s choices files
  let files := applyAll removals files
  let reopening := if s.compression then reopenCompressedLog s choices files else []
  let files := applyAll reopening files
  removals ++ reopening ++ adoptNextDayLog s choices files

end

/-- A start that was cut off. -/
def Interrupted (s : Startup) (files files' : Files Name UInt8) : Prop :=
  ∃ choices k, files' = applyAll ((start s choices files).take k) files

/-- A start that completes. -/
def Completed (s : Startup) (files files' : Files Name UInt8) : Prop :=
  ∃ choices, files' = applyAll (start s choices files) files

/-- Any number of starts that are cut off, and one that completes. -/
def Restarted (s : Startup) (files files' : Files Name UInt8) : Prop :=
  ∃ before, Relation.ReflTransGen (Interrupted s) files before ∧ Completed s before files'

end Llamesh.Logging

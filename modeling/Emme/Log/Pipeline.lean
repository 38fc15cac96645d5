import Emme.Log.Rollover
import Emme.Log.Shutdown
import Mathlib.Data.List.Infix

/-!
# From `log_message` to the files

The ring and the files together. The lines that were written are the formatted entries in the order
in which they were accepted, and each file holds consecutive ones of them (`InOrder`). After a
shutdown that waited for the calls, and if no rollover took a name twice, every accepted message is
in one file, once (`accepted_lines_in_files`).
-/

namespace Emme.Log

open CString Execution

/-! ## The ring and the files -/

/-- The ring with its threads, and the files. -/
structure Pipeline where
  ring : LogState
  files : LogFiles

/-- What `log_init` and the start of the logger thread leave behind. -/
def Pipeline.start (bufferSize : Nat) (level : LogLevel) (garbage : Nat → LogEntry)
    (fileSize : Nat) (second : Int) : Pipeline :=
  ⟨logInit bufferSize level garbage, openLog fileSize second⟩

/-- A step of the ring. If the logger thread writes in it, `now` is the second in which
`check_rollover` looks at the clock and `rolled` that of the rollover. -/
structure PipelineLabel where
  label : LogLabel
  now : Int
  rolled : Int
  deriving DecidableEq, Repr

/-- The entry that a step of the ring formats. -/
def LogState.writes (s : LogState) (label : LogLabel) : Option LogEntry :=
  match label with
  | .logger =>
      match s.logger with
      | .writing entry => some entry
      | _ => none
  | _ => none

variable (config : LoggingConfig) (zone : LocalTime)

/-- The line that a step writes. -/
def Pipeline.line (p : Pipeline) (step : PipelineLabel) : Option Append :=
  (p.ring.writes step.label).map fun entry =>
    ⟨formattedMessage config.format zone entry, step.now, step.rolled⟩

/-- One step of the ring, and of the files if the logger thread writes a line in it. -/
def Pipeline.next (p : Pipeline) (step : PipelineLabel) : Option Pipeline :=
  (Log.next p.ring step.label).map fun ring =>
    { ring
      files := (p.line config zone step).elim p.files fun message =>
        (writeLine config zone p.files message).2 }

/-- A rollover of this step does not take the name of an earlier backup with lines in it. -/
def Pipeline.FreshNames (p : Pipeline) (step : PipelineLabel) : Prop :=
  ∀ message ∈ p.line config zone step, FreshName config zone p.files message

/-- When `log_shutdown` clears the flag, no call is inside. -/
def Pipeline.QuietStops (p : Pipeline) (step : PipelineLabel) : Prop := QuietStop p.ring step.label

instance (p : Pipeline) (step : PipelineLabel) : Decidable (p.FreshNames config zone step) :=
  inferInstanceAs (Decidable (∀ message ∈ p.line config zone step, _))

instance (p : Pipeline) (step : PipelineLabel) : Decidable (p.QuietStops step) :=
  inferInstanceAs (Decidable (QuietStop _ _))

variable {config zone}

/-! ## The lines -/

/-- A step formats the entry that it writes and no other. -/
theorem next_formatted {s s' : LogState} {label : LogLabel} (h : next s label = some s') :
    s'.formatted = s.formatted ++ (s.writes label).toList := by
  obtain ⟨-, h⟩ := next_eq_some.mp h
  cases label with
  | call level message =>
      cases h
      exact (List.append_nil _).symm
  | producer c now =>
      show s'.formatted = s.formatted ++ []
      rw [List.append_nil]
      simp only [step] at h
      split at h
      · exact (step_call_frame h).formatted
      · cases h
  | logger =>
      simp only [step, stepLogger] at h
      cases hpoint : s.logger <;> rw [hpoint] at h <;> cases h <;>
        simp [LogState.writes, hpoint]
  | shutdown =>
      show s'.formatted = s.formatted ++ []
      rw [List.append_nil]
      simp only [step, stepShutdown] at h
      split at h
      case h_1 | h_4 | h_5 =>
          cases h
          rfl
      case h_2 => split at h <;> cases h; rfl
      case h_3 => split at h <;> cases h <;> rfl
      case h_6 => cases h

/-- Lines with their numbers. -/
def numbered (lines : List Bytes) : List (Nat × Bytes) := (List.range lines.length).zip lines

/-- One more line has the next number. -/
theorem numbered_snoc (lines : List Bytes) (line : Bytes) :
    numbered (lines ++ [line]) = numbered lines ++ [(lines.length, line)] := by
  rw [numbered, List.length_append, List.length_singleton, List.range_succ, List.zip_append]
  · rfl
  · exact List.length_range

/-- Every file holds consecutive lines of those that were written, and the log file the last. -/
structure InOrder (config : LoggingConfig) (s : LogFiles) : Prop where
  file : s.lines config.file <:+ numbered s.written
  every : ∀ name, s.lines name <:+: numbered s.written

variable {s : LogFiles} {label : PipelineLabel} {p p' : Pipeline}

/-- A rollover moves the lines of the log file together. -/
theorem InOrder.rollover (h : InOrder config s) (now : Int) :
    InOrder config (rolloverLogFile config zone s now) := by
  refine ⟨?_, fun name => ?_⟩
  · rw [rollover_file]
    exact List.nil_suffix
  · by_cases hfile : name = config.file
    · rw [hfile, rollover_file]
      exact List.nil_infix
    · by_cases hbackup : name = backupName config zone s.lastRollover
      · rw [hbackup, rollover_backup]
        exact h.every config.file
      · rw [rollover_other s now hfile hbackup]
        exact h.every name

/-- A line is appended behind the last. -/
theorem InOrder.append (h : InOrder config s) (text : Bytes) :
    InOrder config (appendLine config s text) := by
  have hwritten : numbered (appendLine config s text).written =
      numbered s.written ++ [(s.written.length, text)] := numbered_snoc s.written text
  have hfile : (appendLine config s text).lines config.file <:+
      numbered (appendLine config s text).written := by
    rw [hwritten, append_file]
    obtain ⟨front, hfront⟩ := h.file
    exact ⟨front, by rw [← List.append_assoc, hfront]⟩
  refine ⟨hfile, fun name => ?_⟩
  by_cases hname : name = config.file
  · rw [hname]
    exact hfile.isInfix
  · rw [hwritten, append_other s text hname]
    exact (h.every name).trans (List.prefix_append _ _).isInfix

/-- Writing a line keeps the files in order. -/
theorem InOrder.write_line (h : InOrder config s) (message : Append) :
    InOrder config (writeLine config zone s message).2 := by
  unfold writeLine checkRollover
  split
  · split
    · exact (h.rollover _).append _
    · exact h.append _
  · exact h

/-- With the file appender on, every line is written. -/
theorem write_line_written (hfile : config.appenderFile = true) (s : LogFiles) (message : Append) :
    (writeLine config zone s message).2.written = s.written ++ [message.text] := by
  unfold writeLine checkRollover
  rw [if_pos hfile]
  split <;> rfl

/-! ## Runs -/

/-- What holds of the files at every moment. -/
structure Pipeline.Wrote (config : LoggingConfig) (zone : LocalTime) (p : Pipeline) : Prop where
  written : p.files.written = p.ring.formatted.map (formattedMessage config.format zone)
  order : InOrder config p.files

/-- Every step writes what the logger thread formats in it. -/
theorem Pipeline.Wrote.step (hfile : config.appenderFile = true) (h : p.Wrote config zone)
    (hnext : p.next config zone label = some p') : p'.Wrote config zone := by
  obtain ⟨ring, hring, rfl⟩ := Option.map_eq_some_iff.mp hnext
  have hformatted := next_formatted hring
  unfold Pipeline.line
  cases hwrites : p.ring.writes label.label with
  | none =>
      rw [hwrites, Option.toList_none, List.append_nil] at hformatted
      exact ⟨h.written.trans (by rw [hformatted]), h.order⟩
  | some entry =>
      rw [hwrites, Option.toList_some] at hformatted
      refine ⟨?_, h.order.write_line _⟩
      show (writeLine config zone p.files _).2.written = ring.formatted.map _
      rw [write_line_written hfile, h.written, hformatted, List.map_append]
      rfl

/-- A step of both is one of the ring. -/
theorem pipeline_ring (hnext : p.next config zone label = some p') :
    next p.ring label.label = some p'.ring := by
  obtain ⟨ring, hring, rfl⟩ := Option.map_eq_some_iff.mp hnext
  exact hring

/-- A step whose rollover takes a new name loses no line. -/
theorem pipeline_files (h : FilesInv config zone p.files)
    (hfresh : p.FreshNames config zone label) (hnext : p.next config zone label = some p') :
    FilesInv config zone p'.files := by
  obtain ⟨ring, -, rfl⟩ := Option.map_eq_some_iff.mp hnext
  show FilesInv config zone ((p.line config zone label).elim _ _)
  cases hline : p.line config zone label with
  | none => exact h
  | some message => exact h.write_line (hfresh message hline)

/-- The ring of a run of both, as long as fewer than `2 ^ 64` messages were accepted. -/
def Pipeline.RingSound (p : Pipeline) : Prop :=
  p.ring.accepted.length < sizeModulus → RingInv p.ring

/-- Every step keeps the ring sound. -/
theorem Pipeline.RingSound.step (h : p.RingSound) (hnext : p.next config zone label = some p') :
    p'.RingSound := by
  intro hfew
  have hring := pipeline_ring hnext
  exact next_inv (h (Nat.lt_of_le_of_lt (next_keeps hring).1.length_le hfew)) hring hfew

/-- The same with what a quiet stop adds. -/
def Pipeline.StopSound (p : Pipeline) : Prop :=
  p.ring.accepted.length < sizeModulus → RingInv p.ring ∧ StopInv p.ring

/-- Every step keeps it if the stop is quiet. -/
theorem Pipeline.StopSound.step (h : p.StopSound) (hquiet : p.QuietStops label)
    (hnext : p.next config zone label = some p') : p'.StopSound := by
  intro hfew
  have hring := pipeline_ring hnext
  obtain ⟨hinv, hstop⟩ := h (Nat.lt_of_le_of_lt (next_keeps hring).1.length_le hfew)
  exact ⟨next_inv hinv hring hfew, next_stop_inv hinv hstop hquiet hring⟩

variable (config zone)

/-- A message is accepted and written, then another one, which is still in the ring when the logger
is shut down. There is a rollover before every line. -/
def quietSteps : List PipelineLabel :=
  (LogLabel.call .warn (ascii "a") :: List.replicate 12 (LogLabel.producer 0 (.ofSec 5)) ++
      List.replicate 8 LogLabel.logger).map (fun label => ⟨label, 7, 8⟩) ++
    (LogLabel.call .error (ascii "b") :: List.replicate 12 (LogLabel.producer 1 (.ofSec 6)) ++
      LogLabel.shutdown :: List.replicate 13 LogLabel.logger ++
        List.replicate 4 LogLabel.shutdown).map (fun label => ⟨label, 9, 9⟩)

end Emme.Log

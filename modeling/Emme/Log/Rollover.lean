import Emme.Lib.Execution
import Emme.Log.Format

/-!
# Rolling over the log file

`check_rollover` may rename the log file to a backup, named after the second of the rollover before
it, and `rename` replaces a file of that name. So two rollovers that follow one in the same second
lose the lines of the first (`burst_overwrites`). That this is the only way to lose a line is said
of the files (`kept_iff`) and of the clock alone (`lines_kept_iff`).
-/

namespace Emme.Log

open CString Execution

/-! ## The files -/

/-- The log file and its backups in one run: the lines of this run in the file of a name, each with
its number, and beside `current_file_size` and `last_rollover.tv_sec` a record of all lines written
and of the backups that were made with lines in them. -/
structure LogFiles where
  lines : Bytes → List (Nat × Bytes)
  fileSize : Nat
  lastRollover : Int
  written : List Bytes
  backups : List Bytes

/-- What `log_init` and the start of the logger thread leave behind: a file of some size, and the
second in which the logger thread starts. -/
def openLog (fileSize : Nat) (start : Int) : LogFiles := ⟨fun _ => [], fileSize, start, [], []⟩

variable (config : LoggingConfig) (zone : LocalTime)

/-- The name that `rollover_log_file` composes in a buffer of 512 bytes. -/
def backupName (second : Int) : Bytes :=
  (config.file ++ ascii "." ++ zone.stamp second ++ ascii ".bak").take 511

/-- `rollover_log_file`; `now` is the second after the new file was opened. -/
def rolloverLogFile (s : LogFiles) (now : Int) : LogFiles :=
  let backup := backupName config zone s.lastRollover
  { s with
    lines := Function.update (Function.update s.lines backup (s.lines config.file)) config.file []
    fileSize := 0
    lastRollover := now
    backups := if s.lines config.file = [] then s.backups else s.backups ++ [backup] }

/-- A message is about to be written: its formatted text, the second in which `check_rollover`
looks at the clock, and the one in which a rollover would be done. -/
structure Append where
  text : Bytes
  now : Int
  rolled : Int
  deriving DecidableEq, Repr

/-- `check_rollover` decides to roll over. -/
def RollsOver (fileSize : Nat) (lastRollover : Int) (message : Append) : Prop :=
  (0 < config.rolloverSize ∧ config.rolloverSize ≤ fileSize + message.text.length) ∨
    (config.rolloverDaily = true ∧ zone.day message.now ≠ zone.day lastRollover)

instance (fileSize : Nat) (lastRollover : Int) (message : Append) :
    Decidable (RollsOver config zone fileSize lastRollover message) :=
  inferInstanceAs (Decidable (_ ∨ _))

/-- `check_rollover`. -/
def checkRollover (s : LogFiles) (message : Append) : LogFiles :=
  if RollsOver config zone s.fileSize s.lastRollover message then
    rolloverLogFile config zone s message.rolled
  else s

/-- `fputs` and the account of the file's size. -/
def appendLine (s : LogFiles) (text : Bytes) : LogFiles :=
  { s with
    lines := Function.update s.lines config.file
      (s.lines config.file ++ [(s.written.length, text)])
    fileSize := s.fileSize + text.length
    written := s.written ++ [text] }

/-- The part of the logger thread that writes a formatted message to the file. -/
def writeLine (s : LogFiles) (message : Append) : Unit × LogFiles :=
  if config.appenderFile then
    ((), appendLine config (checkRollover config zone s message) message.text)
  else ((), s)

/-! ## What becomes of a line -/

/-- The line with a number is present exactly once, in the log file or in a backup. -/
def Present (s : LogFiles) (i : Nat) : Prop :=
  ∃ text name, s.written[i]? = some text ∧
    (name = config.file ∨ ∃ second, name = backupName config zone second) ∧
    (s.lines name).filter (·.1 = i) = [(i, text)] ∧
    ∀ other, other ≠ name → ∀ line ∈ s.lines other, line.1 ≠ i

/-- The line with a number is gone. -/
def Lost (s : LogFiles) (i : Nat) : Prop :=
  i < s.written.length ∧ ∀ name, ∀ line ∈ s.lines name, line.1 ≠ i

/-- A rollover does not take the name of an earlier backup with lines in it. -/
def FreshName (s : LogFiles) (message : Append) : Prop :=
  config.appenderFile = true → RollsOver config zone s.fileSize s.lastRollover message →
    backupName config zone s.lastRollover ∉ s.backups

instance (s : LogFiles) (message : Append) : Decidable (FreshName config zone s message) :=
  inferInstanceAs (Decidable (_ → _))

variable {config zone}

/-- A backup never has the name of the log file: neither buffer is too small for its text. -/
theorem backup_ne_file (second : Int) : backupName config zone second ≠ config.file := by
  intro h
  have hfile := config.file_length
  have hlength := congrArg List.length h
  have hbak : (ascii ".bak").length = 4 := by decide
  rw [backupName, List.length_take, List.length_append, List.length_append, List.length_append,
    hbak] at hlength
  omega

variable {s : LogFiles} {i : Nat} {name : Bytes} {message : Append}

/-- A line that is gone is not present. -/
theorem Lost.not_present (h : Lost s i) : ¬ Present config zone s i := by
  rintro ⟨text, name, -, -, hline, -⟩
  have hmem : (i, text) ∈ (s.lines name).filter (·.1 = i) := by
    rw [hline]
    exact List.mem_singleton.mpr rfl
  exact h.2 name _ (List.mem_filter.mp hmem).1 rfl

section Lines

variable (s : LogFiles) (now : Int)

/-- The three kinds of file after a rollover. -/
theorem rollover_file : (rolloverLogFile config zone s now).lines config.file = [] :=
  Function.update_self _ _ _

/-- The lines of the log file are in the backup. -/
theorem rollover_backup :
    (rolloverLogFile config zone s now).lines (backupName config zone s.lastRollover) =
      s.lines config.file := by
  simp [rolloverLogFile, backup_ne_file]

/-- The other files are as they were. -/
theorem rollover_other (hfile : name ≠ config.file)
    (hbackup : name ≠ backupName config zone s.lastRollover) :
    (rolloverLogFile config zone s now).lines name = s.lines name := by
  simp [rolloverLogFile, hfile, hbackup]

/-- The two kinds of file after a line was appended. -/
theorem append_file (text : Bytes) :
    (appendLine config s text).lines config.file =
      s.lines config.file ++ [(s.written.length, text)] :=
  Function.update_self _ _ _

/-- Only the log file gets the line. -/
theorem append_other (text : Bytes) (hfile : name ≠ config.file) :
    (appendLine config s text).lines name = s.lines name :=
  Function.update_of_ne hfile _ _

end Lines

/-- Where a line is after a rollover: where it was, unless that was the log file. -/
theorem mem_rollover {now : Int} {line : Nat × Bytes}
    (h : line ∈ (rolloverLogFile config zone s now).lines name) :
    (name = backupName config zone s.lastRollover ∧ line ∈ s.lines config.file) ∨
      (name ≠ config.file ∧ name ≠ backupName config zone s.lastRollover ∧
        line ∈ s.lines name) := by
  by_cases hfile : name = config.file
  · rw [hfile, rollover_file] at h
    cases h
  · by_cases hbackup : name = backupName config zone s.lastRollover
    · rw [hbackup, rollover_backup] at h
      exact Or.inl ⟨hbackup, h⟩
    · rw [rollover_other s now hfile hbackup] at h
      exact Or.inr ⟨hfile, hbackup, h⟩

/-- What is in a file after a line was appended to the log file. -/
theorem mem_append_line {text : Bytes} {line : Nat × Bytes}
    (h : line ∈ (appendLine config s text).lines name) :
    line ∈ s.lines name ∨ (name = config.file ∧ line = (s.written.length, text)) := by
  by_cases hfile : name = config.file
  · subst hfile
    rw [append_file] at h
    rcases List.mem_append.mp h with h | h
    · exact Or.inl h
    · exact Or.inr ⟨rfl, List.mem_singleton.mp h⟩
  · rw [append_other s text hfile] at h
    exact Or.inl h

/-- A line that is gone does not come back: new lines have new numbers. -/
theorem Lost.append (h : Lost s i) (text : Bytes) : Lost (appendLine config s text) i := by
  refine ⟨?_, fun name line hline => ?_⟩
  · show i < (s.written ++ [text]).length
    rw [List.length_append]
    exact Nat.lt_add_right _ h.1
  · rcases mem_append_line hline with hline | ⟨-, rfl⟩
    · exact h.2 name line hline
    · exact Nat.ne_of_gt h.1

/-- A line that is gone stays so. -/
theorem Lost.write_line (h : Lost s i) (message : Append) :
    Lost (writeLine config zone s message).2 i := by
  unfold writeLine checkRollover
  split
  · refine Lost.append ?_ _
    split
    · refine ⟨h.1, fun name line hline => ?_⟩
      rcases mem_rollover hline with ⟨-, hline⟩ | ⟨-, -, hline⟩
      · exact h.2 _ line hline
      · exact h.2 name line hline
    · exact h
  · exact h

/-- What holds while nothing is lost: every line is present, the files have only lines that were
written, and besides the log file those with lines are the recorded backups. -/
structure FilesInv (config : LoggingConfig) (zone : LocalTime) (s : LogFiles) : Prop where
  present : ∀ i < s.written.length, Present config zone s i
  bounded : ∀ name, ∀ line ∈ s.lines name, line.1 < s.written.length
  backed : ∀ name, name ≠ config.file → (s.lines name ≠ [] ↔ name ∈ s.backups)

/-- At the start no line has been written. -/
theorem open_log_inv (fileSize : Nat) (start : Int) :
    FilesInv config zone (openLog fileSize start) where
  present := fun i h => absurd h (Nat.not_lt_zero i)
  bounded := fun _ _ h => by cases h
  backed := fun _ _ => by simp [openLog]

/-- A rollover under a new name loses nothing. -/
theorem FilesInv.rollover (hinv : FilesInv config zone s)
    (hfresh : backupName config zone s.lastRollover ∉ s.backups) (now : Int) :
    FilesInv config zone (rolloverLogFile config zone s now) := by
  have hempty : s.lines (backupName config zone s.lastRollover) = [] := by
    by_contra hlines
    exact hfresh ((hinv.backed _ (backup_ne_file _)).mp hlines)
  refine ⟨fun i hi => ?_, fun name line hline => ?_, fun name hname => ?_⟩
  · obtain ⟨text, name, htext, hname, hline, hothers⟩ := hinv.present i hi
    by_cases hfile : name = config.file
    · -- the line moves with the file
      refine ⟨text, backupName config zone s.lastRollover, htext, Or.inr ⟨_, rfl⟩, ?_, ?_⟩
      · rw [rollover_backup, ← hfile]
        exact hline
      · intro other hother line hmem
        rcases mem_rollover hmem with ⟨hbackup, -⟩ | ⟨hne, -, hmem⟩
        · exact absurd hbackup hother
        · exact hothers other (hfile ▸ hne) line hmem
    · have hbackup : name ≠ backupName config zone s.lastRollover := by
        rintro rfl
        rw [hempty] at hline
        cases hline
      refine ⟨text, name, htext, hname, ?_, ?_⟩
      · rw [rollover_other s now hfile hbackup]
        exact hline
      · intro other hother line hmem
        rcases mem_rollover hmem with ⟨-, hmem⟩ | ⟨-, -, hmem⟩
        · exact hothers _ (Ne.symm hfile) line hmem
        · exact hothers other hother line hmem
  · rcases mem_rollover hline with ⟨-, hline⟩ | ⟨-, -, hline⟩
    · exact hinv.bounded _ line hline
    · exact hinv.bounded name line hline
  · have hbackups : (rolloverLogFile config zone s now).backups =
        if s.lines config.file = [] then s.backups
        else s.backups ++ [backupName config zone s.lastRollover] := rfl
    by_cases hbackup : name = backupName config zone s.lastRollover
    · subst hbackup
      rw [rollover_backup, hbackups]
      split
      · rename_i hnone
        simp [hnone, hfresh]
      · rename_i hsome
        simp [hsome]
    · rw [rollover_other s now hname hbackup, hinv.backed name hname, hbackups]
      split <;> simp [hbackup]

/-- A rollover under the name of an earlier backup loses its lines. -/
theorem FilesInv.overwrites (hinv : FilesInv config zone s)
    (hused : backupName config zone s.lastRollover ∈ s.backups) (now : Int) :
    ∃ i, Lost (rolloverLogFile config zone s now) i := by
  obtain ⟨line, hline⟩ := List.exists_mem_of_ne_nil _
    ((hinv.backed _ (backup_ne_file _)).mpr hused)
  have hlt := hinv.bounded _ line hline
  obtain ⟨text, name, -, -, -, hothers⟩ := hinv.present line.1 hlt
  -- the line is in the backup, so it is nowhere else
  have hname : name = backupName config zone s.lastRollover := by
    by_contra hne
    exact hothers _ (Ne.symm hne) line hline rfl
  subst hname
  refine ⟨line.1, hlt, fun name line' hmem => ?_⟩
  rcases mem_rollover hmem with ⟨-, hmem⟩ | ⟨-, hbackup, hmem⟩
  · exact hothers _ (Ne.symm (backup_ne_file _)) line' hmem
  · exact hothers name hbackup line' hmem

/-- The line that is appended is present, and all others still are. -/
theorem FilesInv.append (hinv : FilesInv config zone s) (text : Bytes) :
    FilesInv config zone (appendLine config s text) := by
  have hlength : (appendLine config s text).written.length = s.written.length + 1 :=
    List.length_append
  refine ⟨fun i hi => ?_, fun name line hline => ?_, fun name hname => ?_⟩
  · rw [hlength] at hi
    rcases Nat.lt_succ_iff_lt_or_eq.mp hi with hi | rfl
    · obtain ⟨text', name, htext, hname, hline, hothers⟩ := hinv.present i hi
      refine ⟨text', name, ?_, hname, ?_, fun other hne line hmem => ?_⟩
      · exact (List.getElem?_append_left hi).trans htext
      · by_cases hcurrent : name = config.file
        · subst hcurrent
          simp [append_file, hline, Nat.ne_of_gt hi]
        · rw [append_other s text hcurrent]
          exact hline
      · rcases mem_append_line hmem with hmem | ⟨-, rfl⟩
        · exact hothers other hne line hmem
        · exact Nat.ne_of_gt hi
    · -- the new line is at the end of the log file, and its number is new
      have hnone : (s.lines config.file).filter (·.1 = s.written.length) = [] := by
        refine List.filter_eq_nil_iff.mpr fun line hline => ?_
        simpa using Nat.ne_of_lt (hinv.bounded _ line hline)
      refine ⟨text, config.file, ?_, Or.inl rfl, ?_, fun other hne line hmem => ?_⟩
      · exact List.getElem?_concat_length
      · simp [append_file, hnone]
      · rw [append_other s text hne] at hmem
        exact Nat.ne_of_lt (hinv.bounded other line hmem)
  · rw [hlength]
    rcases mem_append_line hline with hline | ⟨-, rfl⟩
    · exact Nat.lt_succ_of_lt (hinv.bounded name line hline)
    · exact Nat.lt_succ_self _
  · rw [append_other s text hname]
    exact hinv.backed name hname

/-! ## Whole runs -/

/-- A message whose rollover, if there is one, takes a new name. -/
theorem FilesInv.write_line (hinv : FilesInv config zone s)
    (hfresh : FreshName config zone s message) :
    FilesInv config zone (writeLine config zone s message).2 := by
  unfold writeLine checkRollover
  split
  · rename_i hfile
    split
    · rename_i hrolls
      exact (hinv.rollover (hfresh hfile hrolls) _).append _
    · exact hinv.append _
  · exact hinv

/-- A message whose rollover takes the name of an earlier backup. -/
theorem FilesInv.write_line_lost (hinv : FilesInv config zone s)
    (hused : ¬ FreshName config zone s message) :
    ∃ i, Lost (writeLine config zone s message).2 i := by
  simp only [FreshName, not_forall, not_not] at hused
  obtain ⟨hfile, hrolls, hused⟩ := hused
  obtain ⟨i, hlost⟩ := hinv.overwrites hused message.rolled
  refine ⟨i, ?_⟩
  unfold writeLine checkRollover
  rw [if_pos hfile, if_pos hrolls]
  exact hlost.append _

/-- From any state in which nothing is lost. -/
theorem FilesInv.kept_iff (hinv : FilesInv config zone s) (messages : List Append) :
    (∀ i < (after (writeLine config zone) s messages).written.length,
        Present config zone (after (writeLine config zone) s messages) i) ↔
      Along (writeLine config zone) (FreshName config zone) s messages := by
  induction messages generalizing s with
  | nil => exact iff_of_true hinv.present trivial
  | cons message messages ih =>
      rw [after_cons, Along]
      by_cases hfresh : FreshName config zone s message
      · rw [ih (hinv.write_line hfresh)]
        exact ⟨fun h => ⟨hfresh, h⟩, fun h => h.2⟩
      · obtain ⟨i, hlost⟩ := hinv.write_line_lost hfresh
        -- a lost line does not come back
        have hstep : ∀ state message, Lost state i →
            Lost (writeLine config zone state message).2 i :=
          fun _ message h => h.write_line message
        have hfinal := after_preserves hstep hlost messages
        exact iff_of_false (fun h => hfinal.not_present (h i hfinal.1)) fun h => hfresh h.1

/-! ## The clock -/

variable (config zone)

/-- The seconds that name the backups while these messages are written, from the size of the file
and the second of the last rollover: each rollover takes that of the one before it. -/
def namingSeconds : Nat → Int → List Append → List Int
  | _, _, [] => []
  | fileSize, lastRollover, message :: messages =>
      if RollsOver config zone fileSize lastRollover message then
        lastRollover :: namingSeconds message.text.length message.rolled messages
      else namingSeconds (fileSize + message.text.length) lastRollover messages

/-- The seconds that name backups with lines of this run. A rollover before the first message moves
a file without such lines, and from the second message on there is always one. -/
def backupSeconds (fileSize : Nat) (start : Int) : List Append → List Int
  | [] => []
  | first :: messages =>
      if RollsOver config zone fileSize start first then
        namingSeconds config zone first.text.length first.rolled messages
      else namingSeconds config zone (fileSize + first.text.length) start messages

variable {config zone}

/-- The name of a backup is not cut off, so it is as new as the stamp in it. -/
theorem backup_name_inj {second other : Int}
    (h : backupName config zone second = backupName config zone other) :
    zone.stamp second = zone.stamp other := by
  have hwhole (second : Int) : backupName config zone second =
      config.file ++ ascii "." ++ zone.stamp second ++ ascii ".bak" := by
    have hfile := config.file_length
    have hstamp := zone.stamp_length second
    have hdot : (ascii ".").length = 1 := by decide
    have hbak : (ascii ".bak").length = 4 := by decide
    refine List.take_of_length_le ?_
    rw [List.length_append, List.length_append, List.length_append, hdot, hbak]
    omega
  rw [hwhole, hwhole] at h
  exact List.append_cancel_left (List.append_cancel_right h)

/-- Names are new exactly if the stamps in them are. -/
theorem nodup_backup_names (seconds : List Int) :
    (seconds.map (backupName config zone)).Nodup ↔ (seconds.map zone.stamp).Nodup := by
  induction seconds with
  | nil => exact Iff.rfl
  | cons second seconds ih =>
      have hmem : backupName config zone second ∈ seconds.map (backupName config zone) ↔
          zone.stamp second ∈ seconds.map zone.stamp := by
        simp only [List.mem_map]
        constructor
        · rintro ⟨other, hother, heq⟩
          exact ⟨other, hother, backup_name_inj heq⟩
        · rintro ⟨other, hother, heq⟩
          exact ⟨other, hother, by rw [backupName, backupName, heq]⟩
      rw [List.map_cons, List.map_cons, List.nodup_cons, List.nodup_cons, hmem, ih]

/-- A message that is written after a rollover. -/
theorem write_line_rolled (hfile : config.appenderFile = true)
    (hrolls : RollsOver config zone s.fileSize s.lastRollover message) :
    (writeLine config zone s message).2 =
      appendLine config (rolloverLogFile config zone s message.rolled) message.text := by
  unfold writeLine checkRollover
  rw [if_pos hfile, if_pos hrolls]

/-- A message that is written without one. -/
theorem write_line_unrolled (hfile : config.appenderFile = true)
    (hstays : ¬RollsOver config zone s.fileSize s.lastRollover message) :
    (writeLine config zone s message).2 = appendLine config s message.text := by
  unfold writeLine checkRollover
  rw [if_pos hfile, if_neg hstays]

/-- There is a line in the file to which one was appended. -/
theorem append_line_ne_nil (s : LogFiles) (text : Bytes) :
    (appendLine config s text).lines config.file ≠ [] := by
  rw [append_file]
  exact List.append_ne_nil_of_right_ne_nil _ (List.cons_ne_nil _ _)

/-- From a file with lines in it, every rollover takes a new name exactly if the names are new
among each other and none is that of an earlier backup. -/
theorem along_fresh_iff (hfile : config.appenderFile = true) (hlines : s.lines config.file ≠ [])
    (messages : List Append) :
    Along (writeLine config zone) (FreshName config zone) s messages ↔
      ((namingSeconds config zone s.fileSize s.lastRollover messages).map
          (backupName config zone)).Nodup ∧
        ∀ second ∈ namingSeconds config zone s.fileSize s.lastRollover messages,
          backupName config zone second ∉ s.backups := by
  induction messages generalizing s with
  | nil => simp [Along, namingSeconds]
  | cons message messages ih =>
      rw [Along, namingSeconds]
      by_cases hrolls : RollsOver config zone s.fileSize s.lastRollover message
      · have hbackups : (appendLine config (rolloverLogFile config zone s message.rolled)
            message.text).backups = s.backups ++ [backupName config zone s.lastRollover] :=
          if_neg hlines
        have hlast : (appendLine config (rolloverLogFile config zone s message.rolled)
            message.text).lastRollover = message.rolled := rfl
        have hsize : (appendLine config (rolloverLogFile config zone s message.rolled)
            message.text).fileSize = message.text.length := Nat.zero_add _
        have hfresh : FreshName config zone s message ↔
            backupName config zone s.lastRollover ∉ s.backups :=
          ⟨fun h => h hfile hrolls, fun h _ _ => h⟩
        rw [if_pos hrolls, write_line_rolled hfile hrolls, ih (append_line_ne_nil _ _), hsize,
          hlast, hfresh, hbackups, List.map_cons, List.nodup_cons, List.forall_mem_cons]
        simp only [List.mem_append, List.mem_singleton, not_or, List.mem_map, not_exists, not_and]
        constructor
        · rintro ⟨hnew, hnodup, hothers⟩
          exact ⟨⟨fun second hsecond => (hothers second hsecond).2, hnodup⟩, hnew,
            fun second hsecond => (hothers second hsecond).1⟩
        · rintro ⟨⟨hne, hnodup⟩, hnew, hothers⟩
          exact ⟨hnew, hnodup, fun second hsecond => ⟨hothers second hsecond, hne second hsecond⟩⟩
      · have hfresh : FreshName config zone s message := fun _ h => absurd h hrolls
        rw [if_neg hrolls, write_line_unrolled hfile hrolls, ih (append_line_ne_nil _ _)]
        exact and_iff_right hfresh

/-- From the start every rollover takes a new name exactly if the stamps of the seconds that name
the backups are different. -/
theorem along_fresh_start (hfile : config.appenderFile = true) (fileSize : Nat) (start : Int)
    (messages : List Append) :
    Along (writeLine config zone) (FreshName config zone) (openLog fileSize start) messages ↔
      ((backupSeconds config zone fileSize start messages).map zone.stamp).Nodup := by
  cases messages with
  | nil => exact iff_of_true trivial List.nodup_nil
  | cons first messages =>
      have hfresh : FreshName config zone (openLog fileSize start) first :=
        fun _ _ => List.not_mem_nil
      rw [Along, and_iff_right hfresh, backupSeconds, ← nodup_backup_names]
      by_cases hrolls : RollsOver config zone fileSize start first
      · have hsize : (appendLine config (rolloverLogFile config zone (openLog fileSize start)
            first.rolled) first.text).fileSize = first.text.length := Nat.zero_add _
        rw [if_pos hrolls, write_line_rolled hfile hrolls,
          along_fresh_iff hfile (append_line_ne_nil _ _), hsize]
        exact and_iff_left fun _ _ => List.not_mem_nil
      · rw [if_neg hrolls, write_line_unrolled hfile hrolls,
          along_fresh_iff hfile (append_line_ne_nil _ _)]
        exact and_iff_left fun _ _ => List.not_mem_nil

/-- Without the file appender there is no rollover. -/
theorem along_fresh_off (hfile : config.appenderFile ≠ true) (s : LogFiles)
    (messages : List Append) :
    Along (writeLine config zone) (FreshName config zone) s messages := by
  induction messages generalizing s with
  | nil => trivial
  | cons message messages ih => exact ⟨fun h => absurd h hfile, ih _⟩

variable (config zone)

/-- Every line that was written is still there, exactly once, if and only if the backups with lines
of this run are named after different stamps: that of the start or of the rollover before the
first message, and those of the rollovers after it but for the last. -/
theorem lines_kept_iff (fileSize : Nat) (start : Int) (messages : List Append) :
    (∀ i < (after (writeLine config zone) (openLog fileSize start) messages).written.length,
        Present config zone (after (writeLine config zone) (openLog fileSize start) messages) i) ↔
      (config.appenderFile = true →
        ((backupSeconds config zone fileSize start messages).map zone.stamp).Nodup) := by
  rw [(open_log_inv fileSize start).kept_iff messages]
  by_cases hfile : config.appenderFile = true
  · rw [along_fresh_start hfile]
    exact ⟨fun h _ => h, fun h => h hfile⟩
  · exact iff_of_true (along_fresh_off hfile _ messages) fun h => absurd h hfile

/-- Rolling over before every message. -/
def everyMessage : LoggingConfig where
  file := ascii "app.log"
  file_length := by decide
  format := .plain
  rolloverSize := 1
  rolloverDaily := false
  appenderFile := true
  appenderConsole := false

/-- Three messages in one second. -/
def burst : List Append :=
  [⟨ascii "one\n", 7, 7⟩, ⟨ascii "two\n", 7, 7⟩, ⟨ascii "three\n", 7, 7⟩]

/-- Each of the three messages starts a new file, and the backup with the first is overwritten by
that with the second. -/
theorem burst_overwrites :
    (after (writeLine everyMessage firstMinute) (openLog 0 7) burst).written =
        [ascii "one\n", ascii "two\n", ascii "three\n"] ∧
      (after (writeLine everyMessage firstMinute) (openLog 0 7) burst).lines
        (ascii "app.log") = [(2, ascii "three\n")] ∧
      (after (writeLine everyMessage firstMinute) (openLog 0 7) burst).lines
        (ascii "app.log.19700101000007.bak") = [(1, ascii "two\n")] ∧
      (backupSeconds everyMessage firstMinute 0 7 burst).map firstMinute.stamp =
        [ascii "19700101000007", ascii "19700101000007"] ∧
      ¬ ∀ i < (after (writeLine everyMessage firstMinute) (openLog 0 7) burst).written.length,
        Present everyMessage firstMinute
          (after (writeLine everyMessage firstMinute) (openLog 0 7) burst) i := by
  refine ⟨by decide, by decide, by decide, by decide, fun hkept => ?_⟩
  have hused : ¬ Along (writeLine everyMessage firstMinute) (FreshName everyMessage firstMinute)
      (openLog 0 7) burst := by decide
  exact hused (((open_log_inv 0 7).kept_iff burst).mp hkept)

end Emme.Log

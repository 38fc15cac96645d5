import Emme.Lib.Json
import Emme.Log.Ring

/-!
# The lines of the log

The logger thread formats an entry with `snprintf`. In JSON the message is put between quotes as
it is, so a line is a JSON object with that message exactly if the message needs no escapes
(`json_line_iff`). Otherwise a client that chooses the message, for instance by the path it
requests, chooses what the line says.
-/

namespace Emme.Log

open CString Json

/-! ## Local time and the configuration -/

/-- What `localtime_r` and `strftime` make of a second: the texts for `%Y-%m-%d %H:%M:%S` and for
`%Y%m%d%H%M%S`, which fit the buffer of 64 bytes and are made of digits and separators, and
`tm_yday` with `tm_year`. -/
structure LocalTime where
  dateTime : Int → Bytes
  stamp : Int → Bytes
  day : Int → Int × Int
  dateTime_length : ∀ second, (dateTime second).length < 64
  dateTime_bytes : ∀ second, ∀ b ∈ dateTime second, (48 ≤ b ∧ b ≤ 57) ∨ b ∈ ascii "- :"
  stamp_length : ∀ second, (stamp second).length < 64

/-- `LogFormat`. -/
inductive LogFormat where
  | plain
  | json
  deriving DecidableEq, Repr

/-- The part of `LoggingConfig` that the logger thread looks at. -/
structure LoggingConfig where
  file : Bytes
  file_length : file.length < 256
  format : LogFormat
  rolloverSize : Nat
  rolloverDaily : Bool
  appenderFile : Bool
  appenderConsole : Bool

/-! ## Formatting -/

/-- The last decimal digit of a number. -/
def lastDigit (n : Nat) : UInt8 := 48 + (n % 10).toUInt8

/-- The last digit is a digit. -/
theorem last_digit_bounds (n : Nat) : 48 ≤ lastDigit n ∧ lastDigit n ≤ 57 := by
  have hdigit : ∀ d : Fin 10, 48 ≤ 48 + d.val.toUInt8 ∧ 48 + d.val.toUInt8 ≤ 57 := by decide
  exact hdigit ⟨n % 10, Nat.mod_lt _ (by decide)⟩

/-- A number below 1000 as `%03ld` prints it. -/
def threeDigits (n : Nat) : Bytes := [lastDigit (n / 100), lastDigit (n / 10), lastDigit n]

/-- The time of an entry, to the millisecond. -/
def timeText (zone : LocalTime) (timestamp : Timespec) : Bytes :=
  zone.dateTime timestamp.sec ++ ascii "." ++ threeDigits (timestamp.nsec / 1000000)

/-- The level of an entry as `%d` prints it. -/
def levelText (level : LogLevel) : Bytes := [lastDigit level.value]

/-- A JSON line up to the message. -/
def jsonFront (zone : LocalTime) (entry : LogEntry) : Bytes :=
  ascii "\x7b\"timestamp\": \"" ++ timeText zone entry.timestamp ++ ascii "\", \"level\": " ++
    levelText entry.level ++ ascii ", \"message\": \""

/-- `formatted_message`, in its buffer of 2048 bytes. -/
def formattedMessage (format : LogFormat) (zone : LocalTime) (entry : LogEntry) : Bytes :=
  match format with
  | .plain =>
      (ascii "[" ++ timeText zone entry.timestamp ++ ascii "] [" ++ levelText entry.level ++
        ascii "] " ++ entry.message ++ [10]).take 2047
  | .json => (jsonFront zone entry ++ entry.message ++ ascii "\"\x7d" ++ [10]).take 2047

/-- The line is one JSON object on one line, with one member of the name `message`, which decodes
to the text. -/
def IsJsonLine (line text : Bytes) : Prop :=
  ∃ body members, line = body ++ [10] ∧ 10 ∉ body ∧ IsText body (.object members) ∧
    (members.filter (·.1 = ascii "message")).map Prod.snd = [.string text]

/-! ## When the line is a JSON object -/

/-- The time consists of printable characters. -/
theorem time_text_ascii {zone : LocalTime} {timestamp : Timespec} {b : UInt8}
    (h : b ∈ timeText zone timestamp) : printable b = true := by
  have hdigit {b : UInt8} (hb : 48 ≤ b ∧ b ≤ 57) : printable b = true := by
    refine decide_eq_true
      ⟨UInt8.le_trans (by decide) hb.1, UInt8.lt_of_le_of_lt hb.2 (by decide), ?_, ?_⟩
    · rintro rfl
      exact absurd hb.1 (by decide)
    · rintro rfl
      exact absurd hb.2 (by decide)
  have hseparator : (ascii "- :" ++ ascii ".").all printable = true := by decide
  rw [List.all_eq_true] at hseparator
  simp only [timeText, List.mem_append] at h
  rcases h with (h | h) | h
  · rcases zone.dateTime_bytes _ b h with h | h
    · exact hdigit h
    · exact hseparator b (List.mem_append_left _ h)
  · exact hseparator b (List.mem_append_right _ h)
  · simp only [threeDigits, List.mem_cons, List.not_mem_nil, or_false] at h
    rcases h with rfl | rfl | rfl <;> exact hdigit (last_digit_bounds _)

/-- The text before the message ends in a space and a quote, and has neither a backslash nor a
line break. -/
theorem json_front_eq (zone : LocalTime) (entry : LogEntry) :
    ∃ front, jsonFront zone entry = front ++ [32, 34] ∧ 92 ∉ front ∧ 10 ∉ front := by
  have hmessage : ascii ", \"message\": \"" = ascii ", \"message\":" ++ [32, 34] := by decide
  refine ⟨ascii "\x7b\"timestamp\": \"" ++ timeText zone entry.timestamp ++
    ascii "\", \"level\": " ++ levelText entry.level ++ ascii ", \"message\":", ?_, ?_⟩
  · rw [jsonFront, hmessage]
    simp only [List.append_assoc]
  · have htime : 92 ∉ timeText zone entry.timestamp ∧ 10 ∉ timeText zone entry.timestamp :=
      ⟨fun h => absurd (time_text_ascii h) (by decide),
        fun h => absurd (time_text_ascii h) (by decide)⟩
    have hlevel : 92 ∉ levelText entry.level ∧ 10 ∉ levelText entry.level := by
      cases entry.level <;> decide
    have hfixed : (92 ∉ ascii "\x7b\"timestamp\": \"" ∧ 10 ∉ ascii "\x7b\"timestamp\": \"") ∧
        (92 ∉ ascii "\", \"level\": " ∧ 10 ∉ ascii "\", \"level\": ") ∧
        (92 ∉ ascii ", \"message\":" ∧ 10 ∉ ascii ", \"message\":") := by decide
    simp only [List.mem_append, htime, hlevel, hfixed, or_self, not_false_eq_true, and_self]

/-- What stands before the message has at most 128 bytes. -/
theorem length_json_front (zone : LocalTime) (entry : LogEntry) :
    (jsonFront zone entry).length ≤ 128 := by
  have hlengths : (ascii "\x7b\"timestamp\": \"").length = 15 ∧
      (ascii "\", \"level\": ").length = 12 ∧ (ascii ", \"message\": \"").length = 14 ∧
      (ascii ".").length = 1 := by decide
  have hdate := zone.dateTime_length entry.timestamp.sec
  simp only [jsonFront, timeText, threeDigits, levelText, List.length_append, List.length_cons,
    List.length_nil]
  omega

/-- A string body in a line of this form that denotes the message cannot begin behind the quote
before it, since it is not shorter, and if it begins in front of that quote it ends in front of it,
since nothing there is escaped. -/
theorem plain_of_string_at {front text before body after : Bytes} (hfront : 92 ∉ front)
    (h : before ++ 34 :: (body ++ 34 :: after) = front ++ [32, 34] ++ text ++ [34, 125])
    (hbody : Chars body text) : Plain text := by
  have hafter : 0 < after.length := by
    refine List.length_pos_iff.mpr ?_
    rintro rfl
    have hlast := congrArg List.reverse h
    simp at hlast
  -- not before the message, so not longer than it
  have hmessage {skipped : Bytes}
      (heq : text ++ [34, 125] = skipped ++ (body ++ 34 :: after)) : Plain text := by
    have hlength := congrArg List.length heq
    simp only [List.length_append, List.length_cons, List.length_nil] at hlength
    exact (hbody.plain_of_length (by omega)).2
  have hsplit : (before ++ [34]) ++ (body ++ 34 :: after) =
      (front ++ [32, 34]) ++ (text ++ [34, 125]) := by simpa using h
  rcases List.append_eq_append_iff.mp hsplit with ⟨inner, hinner, heq⟩ | ⟨skipped, -, heq⟩
  · rcases List.eq_nil_or_concat inner with rfl | ⟨inner, quote, rfl⟩
    · exact @hmessage [] heq.symm
    · rw [List.concat_eq_append] at hinner heq
      have hquote : front ++ [32] ++ [34] = before ++ [34] ++ inner ++ [quote] := by
        simpa using hinner
      obtain ⟨houter, hquote⟩ := List.append_inj' hquote rfl
      obtain rfl : 34 = quote := List.singleton_inj.mp hquote
      have hplain : 92 ∉ inner := by
        intro hmem
        have hmem : 92 ∈ front ++ [32] := houter ▸ List.mem_append_right _ hmem
        rcases List.mem_append.mp hmem with hmem | hmem
        · exact hfront hmem
        · exact absurd hmem (by decide)
      rw [List.append_assoc] at heq
      rcases List.append_eq_append_iff.mp heq with ⟨more, rfl, -⟩ | ⟨more, rfl, hmore⟩
      · exact (hbody.plain_of_no_backslash fun h => hplain (List.mem_append_left _ h)).2
      · cases more with
        | nil =>
            rw [List.append_nil] at hbody
            exact (hbody.plain_of_no_backslash hplain).2
        | cons b more =>
            obtain ⟨rfl, -⟩ := List.cons.inj hmore
            obtain ⟨escaped, rfl⟩ := hbody.quote_escaped rfl
            exact absurd (List.mem_append_right _ List.mem_cons_self) hplain
  · exact hmessage heq

variable {entry : LogEntry}

/-- A line in JSON is not cut. -/
theorem formatted_json (zone : LocalTime) (hlength : entry.message.length ≤ 1023) :
    formattedMessage .json zone entry =
      jsonFront zone entry ++ entry.message ++ [34, 125] ++ [10] := by
  have hfront := length_json_front zone entry
  refine List.take_of_length_le ?_
  rw [List.length_append, List.length_append, List.length_append]
  change _ + _ + 2 + 1 ≤ 2047
  omega

/-- The message is one string of the object, so it needs no escapes. -/
theorem plain_of_json_line {zone : LocalTime} (hlength : entry.message.length ≤ 1023)
    (h : IsJsonLine (formattedMessage .json zone entry) entry.message) : Plain entry.message := by
  obtain ⟨body, members, hline, -, htext, hmessage⟩ := h
  rw [formatted_json zone hlength] at hline
  obtain ⟨hbody, -⟩ := List.append_inj' hline rfl
  obtain ⟨front, hfront, hbackslash, -⟩ := json_front_eq zone entry
  have hmem : Value.string entry.message ∈
      (members.filter (·.1 = ascii "message")).map Prod.snd := by
    rw [hmessage]
    exact List.mem_cons_self
  obtain ⟨⟨name, value⟩, hmem, rfl⟩ := List.mem_map.mp hmem
  obtain ⟨before, inner, after, hsplit, hchars⟩ := htext.string_mem (List.mem_of_mem_filter hmem)
  rw [← hbody, hfront] at hsplit
  exact plain_of_string_at hbackslash hsplit.symm hchars

/-- Texts of the source between quotes. -/
theorem plain_ascii_text : Plain (ascii "timestamp") ∧ Plain (ascii "level") ∧
    Plain (ascii "message") :=
  ⟨plain_of_ascii (by decide), plain_of_ascii (by decide), plain_of_ascii (by decide)⟩

/-- The object that a line with a plain message denotes. -/
theorem json_front_text (zone : LocalTime) (h : Plain entry.message) :
    IsText (jsonFront zone entry ++ entry.message ++ [34, 125])
      (.object [(ascii "timestamp", .string (timeText zone entry.timestamp)),
        (ascii "level", .number (levelText entry.level)),
        (ascii "message", .string entry.message)]) := by
  obtain ⟨htimestamp, hlevel, hmessage⟩ := plain_ascii_text
  have hnil : Space [] := fun _ h => absurd h List.not_mem_nil
  have hspace : Space [32] := fun _ h => List.mem_singleton.mp h ▸ List.mem_cons_self
  have htime : Plain (timeText zone entry.timestamp) := by
    refine plain_of_ascii (List.all_eq_true.mpr ?_)
    exact fun b => time_text_ascii
  have hnumber : Number (levelText entry.level) := by
    refine ⟨[], levelText entry.level, [], [], by simp, Or.inl rfl, ?_, Or.inl rfl, Or.inl rfl⟩
    have hdigit (level : LogLevel) : Digits (levelText level) :=
      ⟨List.cons_ne_nil _ _, fun b hb => List.mem_singleton.mp hb ▸ last_digit_bounds _⟩
    cases entry.level with
    | debug => exact Or.inl rfl
    | info | warn | error => exact Or.inr ⟨hdigit _, by decide⟩
  have hmembers := Members.cons [] _ _ [] [32] _ [] _ _ _ hnil htimestamp.chars hnil hspace
    (.string _ _ htime.chars) hnil
    (Members.cons [32] _ _ [] [32] _ [] _ _ _ hspace hlevel.chars hnil hspace
      (.number _ hnumber) hnil
      (Members.last [32] _ _ [] [32] _ [] _ hspace hmessage.chars hnil hspace
        (.string _ _ h.chars) hnil))
  refine ⟨[], _, [], ?_, hnil, .object _ _ hmembers, hnil⟩
  have hfixed : ascii "\x7b\"timestamp\": \"" = 123 :: 34 :: ascii "timestamp" ++ [34, 58, 32, 34] ∧
      ascii "\", \"level\": " = 34 :: 44 :: 32 :: 34 :: ascii "level" ++ [34, 58, 32] ∧
      ascii ", \"message\": \"" = 44 :: 32 :: 34 :: ascii "message" ++ [34, 58, 32, 34] := by
    decide
  rw [jsonFront, hfixed.1, hfixed.2.1, hfixed.2.2]
  simp only [List.append_assoc, List.cons_append, List.nil_append, List.append_nil]

/-- A message of plain characters makes a JSON line. -/
theorem json_line_of_plain (zone : LocalTime) (hlength : entry.message.length ≤ 1023)
    (h : Plain entry.message) : IsJsonLine (formattedMessage .json zone entry) entry.message := by
  refine ⟨_, _, formatted_json zone hlength, ?_, json_front_text zone h, ?_⟩
  · obtain ⟨front, hfront, -, hbreak⟩ := json_front_eq zone entry
    have hmessage : 10 ∉ entry.message := fun h10 => absurd (h.bytes h10).1 (by decide)
    simp only [hfront, List.mem_append, hbreak, hmessage, or_false, false_or]
    decide
  · have hnames : ascii "timestamp" ≠ ascii "message" ∧ ascii "level" ≠ ascii "message" := by
      decide
    simp [hnames]

/-- For every message of at most 1023 bytes the line is a JSON object with that message exactly
if the message is valid UTF-8 without control characters, quotes and backslashes. -/
theorem json_line_iff (zone : LocalTime) (entry : LogEntry)
    (hlength : entry.message.length ≤ 1023) :
    IsJsonLine (formattedMessage .json zone entry) entry.message ↔ Plain entry.message :=
  ⟨plain_of_json_line hlength, json_line_of_plain zone hlength⟩

/-- UTC in the first minute of 1970. -/
def firstMinute : LocalTime where
  dateTime := fun second =>
    ascii "1970-01-01 00:00:" ++ [lastDigit (second.toNat / 10), lastDigit second.toNat]
  stamp := fun second =>
    ascii "197001010000" ++ [lastDigit (second.toNat / 10), lastDigit second.toNat]
  day := fun _ => (0, 70)
  dateTime_length := fun _ => List.length_append.trans_lt (by decide : 17 + 2 < 64)
  dateTime_bytes := by
    intro second b hb
    rcases List.mem_append.mp hb with hb | hb
    · have hdate : ((ascii "1970-01-01 00:00:").all fun b =>
          decide ((48 ≤ b ∧ b ≤ 57) ∨ b ∈ ascii "- :")) = true := by decide
      exact of_decide_eq_true (List.all_eq_true.mp hdate b hb)
    · simp only [List.mem_cons, List.not_mem_nil, or_false] at hb
      rcases hb with rfl | rfl
      · exact Or.inl (last_digit_bounds _)
      · exact Or.inl (last_digit_bounds _)
  stamp_length := fun _ => List.length_append.trans_lt (by decide : 12 + 2 < 64)

/-- The line for a request. -/
def requested (path : Bytes) : LogEntry where
  level := .info
  message := ascii "GET " ++ path
  timestamp := .ofSec 7

/-- The line for a request of `/index.html`. -/
theorem index_line :
    IsJsonLine (formattedMessage .json firstMinute (requested (ascii "/index.html")))
      (ascii "GET /index.html") :=
  (json_line_iff firstMinute (requested (ascii "/index.html")) (by decide)).mpr
    (plain_of_ascii (by decide))

/-- A quote in the path of a request ends the string. -/
theorem quoted_path_line :
    ¬ IsJsonLine (formattedMessage .json firstMinute (requested (ascii "/a\"b")))
      (ascii "GET /a\"b") := by
  intro h
  have hplain := plain_of_json_line (by decide) h
  exact absurd rfl (hplain.bytes (by decide : 34 ∈ ascii "GET /a\"b")).2.1

end Emme.Log

import Emme.Http.Parser
import Emme.Lib.Lines
import Mathlib.Data.List.TakeWhile

/-!
# What the request parser accepts

The parser searches a buffer that it has already written NUL bytes into. Here the buffer is a
concatenation: the part that is done, the line in work, and the rest. So the parser accepts the
requests of a grammar over lines (`parse_http_request_iff`).
-/

namespace Emme.Http

open CString Lines

/-! ## The grammar -/

/-- A request line: a method of upper-case letters, a path without spaces and an HTTP version,
with one space between them. -/
structure RequestLine (first method path version : Bytes) : Prop where
  first_eq : first = method ++ 32 :: (path ++ 32 :: version)
  length_le : first.length ≤ maxRequestLine
  method_ne : method ≠ []
  method_upper : ∀ b ∈ method, isUpper b = true
  path_space : 32 ∉ path
  version_http : ascii "HTTP/" <+: version

/-- A header line is its field up to the first colon and its value behind it. -/
def headerOf (line : Bytes) : Bytes × Bytes :=
  (line.takeWhile (· ≠ 58), ((line.dropWhile (· ≠ 58)).drop 1).dropWhile isSpace)

/-- The buffer starts with the head of this request. -/
def IsRequest (buffer : Bytes) (text : RequestText) : Prop :=
  ∃ first lines rest, Head buffer first lines rest ∧
    RequestLine first text.method text.path text.version ∧
    lines.length ≤ maxHeaders ∧ (∀ line ∈ lines, 58 ∈ line) ∧
    text.headers = lines.map headerOf

/-! ## The request line -/

/-- What becomes of the request line. -/
def cutRequestLine (method path version : Bytes) : Bytes :=
  method ++ 0 :: (path ++ 0 :: (version ++ [0, 10]))

/-- Where the strings of a request line are. -/
def requestAt (method path : Bytes) : HttpRequest where
  method := 0
  path := method.length + 1
  version := method.length + 1 + path.length + 1
  headers := []

variable {method first line tail : Bytes} {lines : List Bytes}

/-- Upper-case letters are neither spaces nor NUL bytes. -/
theorem not_mem_of_upper (h : ∀ b ∈ method, isUpper b = true) {b : UInt8} (hb : isUpper b = false) :
    b ∉ method :=
  fun hmem => Bool.noConfusion (hb.symm.trans (h b hmem))

/-- The parts of a text without NUL bytes. -/
theorem nul_not_mem_parts {front back : Bytes} {b : UInt8} (h : 0 ∉ front ++ b :: back) :
    0 ∉ front ∧ 0 ∉ back := by
  simp only [List.mem_append, List.mem_cons, not_or] at h
  exact ⟨h.1, h.2.2⟩

/-- The first byte of a text is its terminator only if the text is empty. -/
theorem byte_at_zero (hnul : 0 ∉ method) (back : Bytes) :
    byteAt (method ++ 0 :: back) 0 ≠ 0 ↔ method ≠ [] := by
  cases method with
  | nil => simp [byteAt]
  | cons b method =>
      have hb : b ≠ 0 := fun h => hnul (h ▸ List.mem_cons_self)
      simp [byteAt, hb]

/-- The three strings of a cut request line. -/
theorem cstr_method (hnul : 0 ∉ method) (back : Bytes) : cstr (method ++ 0 :: back) 0 = method := by
  simpa using cstr_place hnul [] back

/-- The path of a request line that has been cut is read back. -/
theorem cstr_path {path : Bytes} (hnul : 0 ∉ path) (method version tail : Bytes) :
    cstr (cutRequestLine method path version ++ tail) (method.length + 1) = path := by
  have hplace := cstr_place hnul (method ++ [0]) (version ++ 0 :: 10 :: tail)
  simpa [cutRequestLine] using hplace

/-- The version of a request line that has been cut is read back. -/
theorem cstr_version {version : Bytes} (hnul : 0 ∉ version) (method path tail : Bytes) :
    cstr (cutRequestLine method path version ++ tail) (method.length + 1 + path.length + 1) =
      version := by
  have hlength : (method ++ 0 :: (path ++ [0])).length =
      method.length + 1 + path.length + 1 := by
    simp only [List.length_append, List.length_cons, List.length_nil]
    omega
  have hplace := cstr_place hnul (method ++ 0 :: (path ++ [0])) (10 :: tail)
  rw [hlength] at hplace
  simpa [cutRequestLine] using hplace

/-- The line is cut at its first space, and the second is looked for behind it. -/
theorem strchr_second_space {others : Bytes} (hnul : 0 ∉ others) (method tail : Bytes)
    (i : Nat) :
    strchr (method ++ 0 :: (others ++ 0 :: 10 :: tail)) (method.length + 1) 32 = some i ↔
      ∃ path version, others = path ++ 32 :: version ∧ 32 ∉ path ∧
        i = method.length + 1 + path.length := by
  have hplace := strchr_place hnul (method ++ [0]) (10 :: tail) 32 i
  simpa using hplace

/-- The second cut of the request line. -/
theorem cut_second_space (method path version tail : Bytes) :
    (method ++ 0 :: (path ++ 32 :: version ++ 0 :: 10 :: tail)).set
        (method.length + 1 + path.length) 0 = cutRequestLine method path version ++ tail := by
  have hlength : (method ++ 0 :: path).length = method.length + 1 + path.length := by
    simp only [List.length_append, List.length_cons]
    omega
  have hset := set_place (method ++ 0 :: path) 32 0 (version ++ 0 :: 10 :: tail)
  rw [hlength] at hset
  simpa [cutRequestLine] using hset

/-- The request line is accepted exactly if it has the form of one, and is cut at its two spaces
and at its end. -/
theorem parse_request_line_iff (hnul : 0 ∉ first) (hline : ¬ crlf <:+: first) (tail : Bytes)
    (result : Bytes × HttpRequest × Nat) :
    parseRequestLine (first ++ crlf ++ tail) = some result ↔
      ∃ method path version, RequestLine first method path version ∧
        result = (cutRequestLine method path version ++ tail, requestAt method path,
          first.length) := by
  have hend : strstr (first ++ crlf ++ tail) 0 crlf = some first.length := by
    simpa using strstr_crlf_place hnul hline [] tail
  have hset : (first ++ crlf ++ tail).set first.length 0 = first ++ 0 :: 10 :: tail := by
    simp [crlf]
  have hcut (method others : Bytes) : (method ++ 32 :: others ++ 0 :: 10 :: tail).set
      method.length 0 = method ++ 0 :: (others ++ 0 :: 10 :: tail) := by simp
  simp only [parseRequestLine, Option.bind_eq_bind, Option.bind_eq_some_iff,
    Option.guard_eq_some', hend, Option.some.injEq, exists_and_left, exists_const,
    exists_eq_left', hset]
  constructor
  · rintro ⟨hlength, space, hspace, hne, hupper, space', hspace', hversion, rfl⟩
    obtain ⟨method, others, rfl, -, hspace⟩ :=
      (strchr_place hnul [] (10 :: tail) 32 space).mp hspace
    obtain rfl : space = method.length := by simpa using hspace
    obtain ⟨hnul_method, hnul_others⟩ := nul_not_mem_parts hnul
    -- all further tests read the buffer with the line cut at its first space
    rw [hcut] at hne hupper hspace' hversion ⊢
    rw [byte_at_zero hnul_method] at hne
    rw [cstr_method hnul_method, List.all_eq_true] at hupper
    obtain ⟨path, version, rfl, hpath, rfl⟩ :=
      (strchr_second_space hnul_others method tail space').mp hspace'
    obtain ⟨-, hnul_version⟩ := nul_not_mem_parts hnul_others
    rw [cut_second_space] at hversion ⊢
    rw [cstr_version hnul_version] at hversion
    exact ⟨method, path, version,
      ⟨rfl, hlength, hne, hupper, hpath, prefix_of_strncmp_eq hversion⟩, rfl⟩
  · rintro ⟨method, path, version, ⟨rfl, hlength, hne, hupper, hpath, hversion⟩, rfl⟩
    obtain ⟨hnul_method, hnul_others⟩ := nul_not_mem_parts hnul
    obtain ⟨-, hnul_version⟩ := nul_not_mem_parts hnul_others
    refine ⟨hlength, method.length, ?_, ?_⟩
    · exact (strchr_place hnul [] (10 :: tail) 32 _).mpr
        ⟨method, path ++ 32 :: version, rfl, not_mem_of_upper hupper (by decide), by simp⟩
    rw [hcut, byte_at_zero hnul_method, cstr_method hnul_method, List.all_eq_true]
    refine ⟨hne, hupper, method.length + 1 + path.length, ?_, ?_⟩
    · exact (strchr_second_space hnul_others method tail _).mpr ⟨path, version, rfl, hpath, rfl⟩
    rw [cut_second_space, cstr_version hnul_version]
    exact ⟨strncmp_eq_of_starts hversion, rfl⟩

/-! ## The header lines -/

/-- The text behind the first colon of a line. -/
def afterColon (line : Bytes) : Bytes := (line.dropWhile (· ≠ 58)).drop 1

/-- What becomes of a header line. -/
def cutHeaderLine (line : Bytes) : Bytes :=
  line.takeWhile (· ≠ 58) ++ 0 :: (afterColon line ++ [0, 10])

/-- Where the strings of the header line at a place are. -/
def headerAt (start : Nat) (line : Bytes) : HttpHeader where
  field := start
  value := start + (line.takeWhile (· ≠ 58)).length + 1 +
    ((afterColon line).takeWhile isSpace).length

/-- Where the strings of lines that follow each other are. -/
def headersAt : Nat → List Bytes → List HttpHeader
  | _, [] => []
  | start, line :: lines => headerAt start line :: headersAt (start + line.length + 2) lines

/-- A line with a colon is a name, the colon and the rest. -/
theorem line_eq_of_colon (h : 58 ∈ line) :
    line = line.takeWhile (· ≠ 58) ++ 58 :: afterColon line := by
  induction line with
  | nil => cases h
  | cons b line ih =>
      by_cases hb : b = 58
      · subst hb
        simp [afterColon]
      · have hmem : 58 ∈ line := (List.mem_cons.mp h).resolve_left (Ne.symm hb)
        have hrest := ih hmem
        simp only [afterColon, List.takeWhile_cons, List.dropWhile_cons, hb, ne_eq,
          not_false_eq_true, decide_true, if_true, List.cons_append] at hrest ⊢
        exact congrArg _ hrest

/-- The name of a header has no colon. -/
theorem colon_not_mem (line : Bytes) : 58 ∉ line.takeWhile (· ≠ 58) := by
  intro h
  exact absurd (List.mem_takeWhile_imp h) (by decide)

/-- What stands behind the colon is the end of the line. -/
theorem after_colon_suffix (line : Bytes) : afterColon line <:+ line :=
  (List.drop_suffix _ _).trans (List.dropWhile_suffix _)

/-- A header line keeps its length when it is cut, with its line end. -/
theorem length_cut_header_line (h : 58 ∈ line) : (cutHeaderLine line).length = line.length + 2 := by
  have hlength := congrArg List.length (line_eq_of_colon h)
  simp only [cutHeaderLine, List.length_append, List.length_cons, List.length_nil] at hlength ⊢
  omega

/-- The cursor of the header loop behind a line that was cut. -/
theorem cursor_behind_line (h : 58 ∈ line) (front : Bytes) :
    front.length + line.length + 2 = (front ++ cutHeaderLine line).length := by
  rw [List.length_append, length_cut_header_line h, Nat.add_assoc]

/-- A header line is cut at its first colon and at its end; without a colon it is refused. -/
theorem parse_header_line_eq (hnul : 0 ∉ line) (front more : Bytes) :
    parseHeaderLine (front ++ line ++ crlf ++ more) front.length (front.length + line.length) =
      if 58 ∈ line then
        some (front ++ cutHeaderLine line ++ more, headerAt front.length line)
      else none := by
  have hset : (front ++ line ++ crlf ++ more).set (front.length + line.length) 0 =
      front ++ line ++ 0 :: 10 :: more := by simp [crlf]
  simp only [parseHeaderLine, hset]
  split
  · rename_i hcolon
    have hline := line_eq_of_colon hcolon
    have hcut : (front ++ line ++ 0 :: 10 :: more).set
        (front.length + (line.takeWhile (· ≠ 58)).length) 0 =
          front ++ cutHeaderLine line ++ more := by
      have hplace := set_place (front ++ line.takeWhile (· ≠ 58)) 58 0
        (afterColon line ++ 0 :: 10 :: more)
      simp only [List.append_assoc, List.length_append, List.cons_append, cutHeaderLine,
        List.nil_append] at hplace ⊢
      rw [← hplace]
      nth_rewrite 1 [hline]
      simp
    have hvalue : cstr (front ++ cutHeaderLine line ++ more)
        (front.length + (line.takeWhile (· ≠ 58)).length + 1) = afterColon line := by
      have hnul_value : 0 ∉ afterColon line := fun h => hnul ((after_colon_suffix line).subset h)
      have hplace := cstr_place hnul_value (front ++ (line.takeWhile (· ≠ 58) ++ [0]))
        (10 :: more)
      simpa [cutHeaderLine, Nat.add_assoc] using hplace
    rw [(strchr_place hnul front (10 :: more) 58 _).mpr
      ⟨_, _, hline, colon_not_mem line, rfl⟩, Option.bind_eq_bind, Option.bind_some, hcut]
    rw [skipSpaces, hvalue]
    rfl
  · rename_i hcolon
    rw [(strchr_place_none hnul front (10 :: more) 58).mpr hcolon]
    rfl

/-- Where the header loop stops: at an empty line, or at a line that a NUL byte cuts off. -/
def Stops (tail : Bytes) : Prop :=
  crlf <+: tail ∨ ∃ text back, tail = text ++ 0 :: back ∧ 0 ∉ text ∧ ¬ crlf <:+: text

/-- The loop's look at the two bytes under its cursor. -/
theorem crlf_at_iff (front text : Bytes) :
    byteAt (front ++ text) front.length = 13 ∧ byteAt (front ++ text) (front.length + 1) = 10 ↔
      crlf <+: text := by
  have hzero : byteAt (front ++ text) front.length = byteAt text 0 := by
    simp [byteAt, List.getElem?_append_right]
  have hone : byteAt (front ++ text) (front.length + 1) = byteAt text 1 := by
    simp [byteAt, List.getElem?_append_right]
  rw [hzero, hone]
  rcases text with _ | ⟨a, _ | ⟨b, text⟩⟩
  · simp [byteAt, crlf]
  · simp [byteAt, crlf]
  · simp [byteAt, crlf, List.cons_prefix_cons, eq_comm]

/-- The loop over the header lines ends where it finds no further line. -/
theorem parse_headers_stops (h : Stops tail) (len fuel : Nat) (front : Bytes)
    (headers : List HttpHeader) :
    parseHeaders len (fuel + 1) (front ++ tail) front.length headers =
      some (front ++ tail, headers) := by
  rw [parseHeaders]
  split
  · rename_i hcursor
    rcases h with hblank | ⟨text, back, rfl, hnul, htext⟩
    · exact absurd ((crlf_at_iff front tail).mpr hblank) hcursor.2
    · rw [← List.append_assoc, strstr_nul_place hnul htext front back]
  · rfl

/-- One turn of the loop. -/
theorem parse_headers_line (hne : line ≠ []) (hline : ¬ crlf <:+: line) (hnul : 0 ∉ line)
    {len : Nat} {front more : Bytes} (hlen : (front ++ line ++ crlf ++ more).length ≤ len)
    (fuel : Nat) (headers : List HttpHeader) :
    parseHeaders len (fuel + 1) (front ++ line ++ crlf ++ more) front.length headers =
      if 58 ∈ line ∧ headers.length < maxHeaders then
        parseHeaders len fuel (front ++ cutHeaderLine line ++ more)
          (front.length + line.length + 2) (headers ++ [headerAt front.length line])
      else none := by
  have hcursor : front.length < len ∧
      ¬ (byteAt (front ++ line ++ crlf ++ more) front.length = 13 ∧
        byteAt (front ++ line ++ crlf ++ more) (front.length + 1) = 10) := by
    constructor
    · simp only [List.length_append] at hlen
      have hpos := List.length_pos_iff.mpr hne
      omega
    · rw [List.append_assoc, List.append_assoc, crlf_at_iff, ← List.append_assoc]
      obtain ⟨b, rest, rfl⟩ := List.exists_cons_of_ne_nil hne
      exact not_crlf_before hline more
  rw [parseHeaders, if_pos hcursor, strstr_crlf_place hnul hline]
  simp only [parse_header_line_eq hnul]
  by_cases hcolon : 58 ∈ line
  · simp only [hcolon, if_true, true_and]
    by_cases hroom : headers.length < maxHeaders
    · rw [if_pos hroom, if_neg (Nat.not_le.mpr hroom)]
    · rw [if_neg hroom, if_pos (Nat.not_lt.mp hroom)]
  · simp only [hcolon, false_and, if_false]

/-- The loop over lines without NUL bytes: it cuts all of them if each has a colon and there is
room for all, and otherwise refuses the request. -/
theorem parse_headers_lines {lines : List Bytes} {tail : Bytes}
    (hlines : ∀ line ∈ lines, line ≠ [] ∧ ¬ crlf <:+: line) (hnul : ∀ line ∈ lines, 0 ∉ line)
    (hstops : Stops tail) {len fuel : Nat} {front : Bytes} {headers : List HttpHeader}
    (hlen : (front ++ joined lines ++ tail).length ≤ len) (hfuel : lines.length < fuel)
    (hheaders : headers.length ≤ maxHeaders) :
    parseHeaders len fuel (front ++ joined lines ++ tail) front.length headers =
      if (∀ line ∈ lines, 58 ∈ line) ∧ headers.length + lines.length ≤ maxHeaders then
        some (front ++ lines.flatMap cutHeaderLine ++ tail,
          headers ++ headersAt front.length lines)
      else none := by
  induction lines generalizing fuel front headers with
  | nil =>
      obtain ⟨fuel, rfl⟩ := Nat.exists_eq_succ_of_ne_zero (Nat.ne_of_gt hfuel)
      simp only [joined_nil, List.append_nil, parse_headers_stops hstops]
      simp [headersAt, hheaders]
  | cons line lines ih =>
      obtain ⟨fuel, rfl⟩ := Nat.exists_eq_succ_of_ne_zero (Nat.ne_of_gt (Nat.zero_lt_of_lt hfuel))
      obtain ⟨⟨hne, hline⟩, hlines⟩ := List.forall_mem_cons.mp hlines
      obtain ⟨hnul_line, hnul⟩ := List.forall_mem_cons.mp hnul
      have hbuffer : front ++ joined (line :: lines) ++ tail =
          front ++ line ++ crlf ++ (joined lines ++ tail) := by simp
      rw [hbuffer] at hlen ⊢
      rw [parse_headers_line hne hline hnul_line hlen]
      by_cases hgood : 58 ∈ line ∧ headers.length < maxHeaders
      · obtain ⟨hcolon, hroom⟩ := hgood
        have hlength := length_cut_header_line hcolon
        -- what is done grows by the cut line, and the cursor stands behind it
        rw [if_pos ⟨hcolon, hroom⟩, cursor_behind_line hcolon, ← List.append_assoc,
          ih hlines hnul]
        · simp only [List.forall_mem_cons, hcolon, true_and, List.length_append,
            List.length_cons, List.length_nil, Nat.zero_add, List.flatMap_cons, headersAt,
            List.append_assoc, List.singleton_append, hlength, Nat.add_comm 1, Nat.add_assoc]
        · simp only [List.length_append, hlength] at hlen ⊢
          simp only [crlf, List.length_cons, List.length_nil] at hlen
          omega
        · exact Nat.lt_of_succ_lt_succ hfuel
        · rw [List.length_append]
          exact hroom
      · rw [if_neg hgood, if_neg]
        rintro ⟨hcolon, hroom⟩
        rw [List.length_cons] at hroom
        exact hgood ⟨hcolon line List.mem_cons_self, by omega⟩

/-- The strings of a cut header line. -/
theorem read_header (hnul : 0 ∉ line) (front tail : Bytes) :
    (cstr (front ++ cutHeaderLine line ++ tail) (headerAt front.length line).field,
      cstr (front ++ cutHeaderLine line ++ tail) (headerAt front.length line).value) =
        headerOf line := by
  have hnul_field : 0 ∉ line.takeWhile (· ≠ 58) :=
    fun h => hnul ((List.takeWhile_prefix _).subset h)
  have hnul_value : 0 ∉ (afterColon line).dropWhile isSpace := fun h =>
    hnul ((after_colon_suffix line).subset ((List.dropWhile_suffix _).subset h))
  refine Prod.ext ?_ ?_
  · show cstr _ front.length = line.takeWhile (· ≠ 58)
    have hplace := cstr_place hnul_field front (afterColon line ++ 0 :: 10 :: tail)
    simpa [cutHeaderLine] using hplace
  · show cstr _ (headerAt front.length line).value = (afterColon line).dropWhile isSpace
    have hplace := cstr_place hnul_value
      (front ++ line.takeWhile (· ≠ 58) ++ 0 :: (afterColon line).takeWhile isSpace) (10 :: tail)
    have hspaces : (afterColon line).takeWhile isSpace ++ (afterColon line).dropWhile isSpace =
        afterColon line := List.takeWhile_append_dropWhile
    have hbuffer : front ++ line.takeWhile (· ≠ 58) ++ 0 :: (afterColon line).takeWhile isSpace ++
        (afterColon line).dropWhile isSpace ++ 0 :: 10 :: tail =
          front ++ cutHeaderLine line ++ tail := by
      rw [cutHeaderLine]
      nth_rewrite 3 [← hspaces]
      simp
    have hvalue : (headerAt front.length line).value =
        (front ++ line.takeWhile (· ≠ 58) ++
          0 :: (afterColon line).takeWhile isSpace).length := by
      simp only [headerAt, List.length_append, List.length_cons]
      omega
    rw [hvalue, ← hbuffer, hplace]

/-- The strings of the header lines, read from the cut buffer. -/
theorem read_headers (hnul : ∀ line ∈ lines, 0 ∉ line) (hcolon : ∀ line ∈ lines, 58 ∈ line)
    (front tail : Bytes) :
    (headersAt front.length lines).map (fun header =>
        (cstr (front ++ lines.flatMap cutHeaderLine ++ tail) header.field,
          cstr (front ++ lines.flatMap cutHeaderLine ++ tail) header.value)) =
      lines.map headerOf := by
  induction lines generalizing front with
  | nil => rfl
  | cons line lines ih =>
      obtain ⟨hnul_line, hnul⟩ := List.forall_mem_cons.mp hnul
      obtain ⟨hcolon_line, hcolon⟩ := List.forall_mem_cons.mp hcolon
      have hfirst := read_header hnul_line front (lines.flatMap cutHeaderLine ++ tail)
      have hrest := ih hnul hcolon (front ++ cutHeaderLine line)
      have hbuffer : front ++ (line :: lines).flatMap cutHeaderLine ++ tail =
          front ++ cutHeaderLine line ++ lines.flatMap cutHeaderLine ++ tail := by simp
      rw [← List.append_assoc] at hfirst
      rw [hbuffer, headersAt, cursor_behind_line hcolon_line, List.map_cons, List.map_cons, hrest,
        hfirst]

/-! ## The whole request -/

/-- Writing into the buffer does not touch what was read from it before: the strings of an
accepted request line are still there once the header lines are cut. -/
theorem request_at_text {path version : Bytes}
    (hnul : 0 ∉ method ++ 32 :: (path ++ 32 :: version)) (tail : Bytes)
    (headers : List HttpHeader) :
    ({ requestAt method path with headers } : HttpRequest).text
        (cutRequestLine method path version ++ tail) =
      { method, path, version
        headers := headers.map fun header =>
          (cstr (cutRequestLine method path version ++ tail) header.field,
            cstr (cutRequestLine method path version ++ tail) header.value) } := by
  obtain ⟨hmethod, hothers⟩ := nul_not_mem_parts hnul
  obtain ⟨hpath, hversion⟩ := nul_not_mem_parts hothers
  have hfirst : cstr (cutRequestLine method path version ++ tail) 0 = method := by
    rw [cutRequestLine, List.append_assoc]
    exact cstr_method hmethod _
  simp only [HttpRequest.text, requestAt, hfirst, cstr_path hpath, cstr_version hversion]

/-- The parser on a request line and header lines without NUL bytes, up to where the header loop
stops. -/
theorem parse_http_request_lines (hnul_first : 0 ∉ first) (hfirst : ¬ crlf <:+: first)
    (hlines : ∀ line ∈ lines, line ≠ [] ∧ ¬ crlf <:+: line) (hnul : ∀ line ∈ lines, 0 ∉ line)
    (hstops : Stops tail) (result : Bytes × HttpRequest) :
    parseHttpRequest (first ++ crlf ++ (joined lines ++ tail)) = some result ↔
      ∃ method path version, RequestLine first method path version ∧
        (∀ line ∈ lines, 58 ∈ line) ∧ lines.length ≤ maxHeaders ∧
        result = (cutRequestLine method path version ++ lines.flatMap cutHeaderLine ++ tail,
          { requestAt method path with
            headers := headersAt (cutRequestLine method path version).length lines }) := by
  have hlength {method path version : Bytes} (hform : RequestLine first method path version) :
      first.length + 2 = (cutRequestLine method path version).length := by
    rw [hform.first_eq]
    simp only [cutRequestLine, List.length_append, List.length_cons, List.length_nil]
    omega
  have hfuel (front : Bytes) : lines.length < (front ++ joined lines ++ tail).length + 1 := by
    have hle := length_le_joined lines
    simp only [List.length_append]
    omega
  have hloop (front : Bytes) := @parse_headers_lines lines tail hlines hnul hstops _ _ front []
    (Nat.le_refl _) (hfuel front) (Nat.zero_le _)
  simp only [parseHttpRequest, Option.bind_eq_bind, Option.bind_eq_some_iff]
  constructor
  · rintro ⟨line, hline, headers, hheaders, h⟩
    obtain ⟨method, path, version, hform, rfl⟩ :=
      (parse_request_line_iff hnul_first hfirst _ line).mp hline
    dsimp only at hheaders
    rw [hlength hform, ← List.append_assoc, hloop] at hheaders
    split at hheaders
    · rename_i hgood
      cases hheaders
      cases h
      exact ⟨method, path, version, hform, hgood.1, by simpa using hgood.2, rfl⟩
    · cases hheaders
  · rintro ⟨method, path, version, hform, hcolon, hroom, rfl⟩
    refine ⟨_, (parse_request_line_iff hnul_first hfirst _ _).mpr
      ⟨method, path, version, hform, rfl⟩,
      (cutRequestLine method path version ++ lines.flatMap cutHeaderLine ++ tail,
        headersAt (cutRequestLine method path version).length lines), ?_, rfl⟩
    dsimp only
    rw [hlength hform, ← List.append_assoc, hloop, if_pos ⟨hcolon, by simpa using hroom⟩]
    rfl

/-- The strings the parser hands out for a buffer. -/
def parsedText (buffer : Bytes) : Option RequestText :=
  (parseHttpRequest buffer).map fun parsed => parsed.2.text parsed.1

/-- The strings of an accepted request are pieces of its lines. -/
theorem parsed_text_lines (hnul_first : 0 ∉ first) (hfirst : ¬ crlf <:+: first)
    (hlines : ∀ line ∈ lines, line ≠ [] ∧ ¬ crlf <:+: line) (hnul : ∀ line ∈ lines, 0 ∉ line)
    (hstops : Stops tail) (text : RequestText) :
    parsedText (first ++ crlf ++ (joined lines ++ tail)) = some text ↔
      RequestLine first text.method text.path text.version ∧ lines.length ≤ maxHeaders ∧
        (∀ line ∈ lines, 58 ∈ line) ∧ text.headers = lines.map headerOf := by
  have htext {method path version : Bytes} (hform : RequestLine first method path version)
      (hcolon : ∀ line ∈ lines, 58 ∈ line) :
      ({ requestAt method path with
          headers := headersAt (cutRequestLine method path version).length lines } :
            HttpRequest).text
          (cutRequestLine method path version ++ lines.flatMap cutHeaderLine ++ tail) =
        ⟨method, path, version, lines.map headerOf⟩ := by
    have hnul_line := hform.first_eq ▸ hnul_first
    rw [List.append_assoc, request_at_text hnul_line, ← List.append_assoc,
      read_headers hnul hcolon]
  rw [parsedText, Option.map_eq_some_iff]
  constructor
  · rintro ⟨result, hparse, rfl⟩
    obtain ⟨method, path, version, hform, hcolon, hroom, rfl⟩ :=
      (parse_http_request_lines hnul_first hfirst hlines hnul hstops result).mp hparse
    rw [htext hform hcolon]
    exact ⟨hform, hroom, hcolon, rfl⟩
  · rintro ⟨hform, hroom, hcolon, hheaders⟩
    refine ⟨_, (parse_http_request_lines hnul_first hfirst hlines hnul hstops _).mpr
      ⟨_, _, _, hform, hcolon, hroom, rfl⟩, ?_⟩
    rw [htext hform hcolon, ← hheaders]

/-- On a buffer without NUL bytes that contains an empty line, the parser accepts exactly the
requests of the grammar, and hands out their strings, whatever follows the empty line. -/
theorem parse_http_request_iff {buffer : Bytes} (hnul : 0 ∉ buffer)
    (hblank : blankLine <:+: buffer) (text : RequestText) :
    parsedText buffer = some text ↔ IsRequest buffer text := by
  have hhead {first : Bytes} {lines : List Bytes} {rest : Bytes}
      (h : Head buffer first lines rest) :
      parsedText buffer = some text ↔
        RequestLine first text.method text.path text.version ∧ lines.length ≤ maxHeaders ∧
          (∀ line ∈ lines, 58 ∈ line) ∧ text.headers = lines.map headerOf := by
    obtain ⟨rfl, hfirst, hlines⟩ := h
    have hnul_first : 0 ∉ first := fun hmem => hnul (by simp [hmem])
    have hnul_lines : ∀ line ∈ lines, 0 ∉ line := by
      intro line hline hmem
      refine hnul ?_
      simp only [joined, List.mem_append, List.mem_flatMap]
      exact Or.inl (Or.inl (Or.inr ⟨line, hline, Or.inl hmem⟩))
    have hstops : Stops (crlf ++ rest) := Or.inl ⟨rest, rfl⟩
    have hparse := parsed_text_lines hnul_first hfirst hlines hnul_lines hstops text
    simpa only [List.append_assoc] using hparse
  constructor
  · intro h
    obtain ⟨i, hi⟩ := Option.ne_none_iff_exists'.mp
      fun hnone => find_sub_eq_none.mp hnone hblank
    obtain ⟨first, lines, rest, hlines, -⟩ := exists_head hi
    exact ⟨first, lines, rest, hlines, (hhead hlines).mp h⟩
  · rintro ⟨first, lines, rest, hlines, hform⟩
    exact (hhead hlines).mpr hform

/-- A request with one header line, and a body behind it. -/
def getRequest : Bytes := ascii "GET /a HTTP/1.1\r\nHost:  x\r\n\r\nbody"

/-- A request with one header. -/
theorem parse_get_request :
    0 ∉ getRequest ∧ blankLine <:+: getRequest ∧
      IsRequest getRequest
        ⟨ascii "GET", ascii "/a", ascii "HTTP/1.1", [(ascii "Host", ascii "x")]⟩ := by
  have hnul : 0 ∉ getRequest := by decide
  have hblank : blankLine <:+: getRequest := by decide
  exact ⟨hnul, hblank, (parse_http_request_iff hnul hblank _).mp (by decide)⟩

end Emme.Http

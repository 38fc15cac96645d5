import Emme.Http.Parser
import Emme.Lib.Memory

/-!
# The parser on its array

The parser once more, as a program that reads and writes single bytes of an array, where an access
outside of it is a fault. For every array that ends in a NUL byte it runs to its end without a fault
and returns what `parseHttpRequest` returns (`parse_http_request_in_place`).
-/

namespace Emme.Http

open CString
open Memory (Attempt Implements load store matchAt allFrom skipWhile)

/-! ## The program -/

/-- The request line: its three tokens and its end. -/
def parseRequestLineInPlace : Attempt (HttpRequest × Nat) := do
  let lineEnd ← OptionT.mk (Memory.strstr 0 crlf)
  guard (lineEnd ≤ maxRequestLine)
  store lineEnd 0
  let space ← OptionT.mk (Memory.strchr 0 32)
  store space 0
  let first ← load 0
  guard (first ≠ 0)
  let upper ← allFrom isUpper 0
  guard upper
  let path := space + 1
  let space ← OptionT.mk (Memory.strchr path 32)
  store space 0
  let version := space + 1
  let http ← matchAt (ascii "HTTP/") version
  guard http
  pure ({ method := 0, path, version, headers := [] }, lineEnd)

/-- One header line. -/
def parseHeaderLineInPlace (cursor lineEnd : Nat) : Attempt HttpHeader := do
  store lineEnd 0
  let colon ← OptionT.mk (Memory.strchr cursor 58)
  store colon 0
  let value ← skipWhile isSpace (colon + 1)
  pure { field := cursor, value }

/-- The header loop; to be left without a round is a fault. -/
def parseHeadersInPlace (len : Nat) : Nat → Nat → List HttpHeader → Attempt (List HttpHeader)
  | 0, _, _ => OptionT.lift Memory.fault
  | fuel + 1, cursor, headers => do
      if cursor < len then
        if ← matchAt crlf cursor then pure headers
        else
          match ← OptionT.lift (Memory.strstr cursor crlf) with
          | none => pure headers
          | some lineEnd =>
              let header ← parseHeaderLineInPlace cursor lineEnd
              if maxHeaders ≤ headers.length then failure
              else parseHeadersInPlace len fuel (lineEnd + 2) (headers ++ [header])
      else pure headers

/-- `parse_http_request(buffer, len, req)` on the array from `buffer` on. -/
def parseHttpRequestInPlace (len : Nat) : Attempt HttpRequest := do
  let (request, lineEnd) ← parseRequestLineInPlace
  let headers ← parseHeadersInPlace len (len + 1) (lineEnd + 2) []
  pure { request with headers }

/-! ## The bytes that are overwritten -/

/-- A line of the buffer, from its start to the carriage return that ends it. The first one is the
request line, and the others follow one another. -/
inductive Line (buffer : Bytes) : Nat → Nat → Prop
  | request {stop : Nat} : strstr buffer 0 crlf = some stop → Line buffer 0 stop
  | header {start stop stop' : Nat} : Line buffer start stop →
      strstr buffer (stop + 2) crlf = some stop' → Line buffer (stop + 2) stop'

/-- The bytes that separate the tokens of a request. -/
inductive Separator (buffer : Bytes) (i : Nat) : Prop
  /-- The carriage return of a line end. -/
  | lineEnd {start : Nat} : Line buffer start i → buffer[i]? = some 13 →
      buffer[i + 1]? = some 10 → Separator buffer i
  /-- One of the first two spaces of the request line. -/
  | space {stop : Nat} : Line buffer 0 stop → i < stop → buffer[i]? = some 32 →
      (buffer.take i).count 32 < 2 → Separator buffer i
  /-- The first colon of a header line. -/
  | colon {start stop : Nat} : Line buffer start stop → 0 < start → start ≤ i → i < stop →
      buffer[i]? = some 58 → (∀ j, start ≤ j → j < i → buffer[j]? ≠ some 58) → Separator buffer i

variable {buffer cut cut' : Bytes} {i start stop pos cursor lineEnd : Nat} {header : HttpHeader}
  {request : HttpRequest}

/-- The two bytes of a line end. -/
theorem crlf_at (h : crlf <+: buffer.drop i) : buffer[i]? = some 13 ∧ buffer[i + 1]? = some 10 := by
  obtain ⟨rest, hrest⟩ := h
  have hget (k : Nat) : buffer[i + k]? = (crlf ++ rest)[k]? := by
    rw [hrest, List.getElem?_drop]
  exact ⟨hget 0, hget 1⟩

/-- A line end lies inside the buffer. -/
theorem lt_length_of_crlf_at (h : crlf <+: buffer.drop i) : i + 1 < buffer.length :=
  (List.getElem?_eq_some_iff.mp (crlf_at h).2).1

/-- A line ends at its line end. -/
theorem Line.crlf_prefix (h : Line buffer start stop) :
    start ≤ stop ∧ crlf <+: buffer.drop stop := by
  cases h with
  | request h => exact strstr_eq_some h
  | header _ h => exact strstr_eq_some h

/-- The line end is a separator. -/
theorem Line.separator (h : Line buffer start stop) : Separator buffer stop :=
  .lineEnd h (crlf_at h.crlf_prefix.2).1 (crlf_at h.crlf_prefix.2).2

/-- `strchr` does not get past a line end that was overwritten. -/
theorem strchr_lt_of_cut {c : UInt8} (hpos : pos ≤ stop) (hstop : cut[stop]? = some 0)
    (h : strchr cut pos c = some i) : i < stop := by
  obtain ⟨-, hbyte, hc, hbefore⟩ := strchr_eq_some h
  by_contra hge
  rcases Nat.lt_or_eq_of_le (Nat.le_of_not_lt hge) with hlt | rfl
  · exact (hbefore stop hpos hlt).2 hstop
  · rw [hstop] at hbyte
    exact hc (Option.some.inj hbyte).symm

/-- No occurrence from one place to another: the number of those before does not change. -/
theorem count_take_eq {c : UInt8} {p : Nat} (hpi : p ≤ i)
    (h : ∀ j, p ≤ j → j < i → buffer[j]? ≠ some c) :
    (buffer.take i).count c = (buffer.take p).count c := by
  induction i, hpi using Nat.le_induction with
  | base => rfl
  | succ i hpi ih =>
      rw [List.take_add_one, List.count_append, ih fun j hj hlt => h j hj (Nat.lt_succ_of_lt hlt)]
      have hlast := h i hpi (Nat.lt_succ_self i)
      cases hget : buffer[i]? with
      | none => rfl
      | some b =>
          have hne : b ≠ c := fun hbc => hlast (hbc ▸ hget)
          simp [hne]

section RequestLine

variable {buffer : Bytes} {lineEnd space : Nat}

/-- The first space of the request line, found after the line's end was overwritten. -/
theorem first_space (hline : strstr buffer 0 crlf = some lineEnd)
    (h : strchr (buffer.set lineEnd 0) 0 32 = some space) :
    space < lineEnd ∧ buffer[space]? = some 32 ∧ (buffer.take space).count 32 = 0 := by
  have hend := lt_length_of_crlf_at (strstr_eq_some hline).2
  have hlt := strchr_lt_of_cut (Nat.zero_le _)
    (List.getElem?_set_self (Nat.lt_of_succ_lt hend)) h
  obtain ⟨-, hbyte, -, hbefore⟩ := strchr_eq_some h
  rw [List.getElem?_set_ne (Nat.ne_of_gt hlt)] at hbyte
  refine ⟨hlt, hbyte, ?_⟩
  rw [count_take_eq (Nat.zero_le space)]
  · rfl
  · intro j hj hjs
    have hother := (hbefore j hj hjs).1
    rwa [List.getElem?_set_ne (by omega)] at hother

/-- The second blank of the request line lies behind the first and in front of the line end. -/
theorem second_space {space' : Nat} (hline : strstr buffer 0 crlf = some lineEnd)
    (hfirst : strchr (buffer.set lineEnd 0) 0 32 = some space)
    (h : strchr ((buffer.set lineEnd 0).set space 0) (space + 1) 32 = some space') :
    space < space' ∧ space' < lineEnd ∧ buffer[space']? = some 32 ∧
      (buffer.take space').count 32 = 1 := by
  have hend := lt_length_of_crlf_at (strstr_eq_some hline).2
  obtain ⟨hspace, hbyte, hcount⟩ := first_space hline hfirst
  have hcut {j : Nat} (hj : space < j) :
      ((buffer.set lineEnd 0).set space 0)[j]? = (buffer.set lineEnd 0)[j]? :=
    List.getElem?_set_ne (Nat.ne_of_lt hj)
  have hlt := strchr_lt_of_cut hspace
    ((hcut hspace).trans (List.getElem?_set_self (Nat.lt_of_succ_lt hend))) h
  obtain ⟨hle, hbyte', -, hbefore⟩ := strchr_eq_some h
  rw [hcut hle, List.getElem?_set_ne (Nat.ne_of_gt hlt)] at hbyte'
  refine ⟨hle, hlt, hbyte', ?_⟩
  rw [count_take_eq hle, List.take_add_one, List.count_append, hcount, hbyte]
  · rfl
  · intro j hj hjs
    have hother := (hbefore j hj hjs).1
    rwa [hcut hj, List.getElem?_set_ne (by omega)] at hother

end RequestLine

/-- The first colon of the line that was cut at its end. -/
theorem first_colon {colon : Nat} (hline : strstr cut cursor crlf = some lineEnd)
    (h : strchr (cut.set lineEnd 0) cursor 58 = some colon) :
    cursor ≤ colon ∧ colon < lineEnd ∧ cut[colon]? = some 58 ∧
      ∀ j, cursor ≤ j → j < colon → cut[j]? ≠ some 58 := by
  obtain ⟨hle, hcrlf⟩ := strstr_eq_some hline
  have hlt := strchr_lt_of_cut hle
    (List.getElem?_set_self (Nat.lt_of_succ_lt (lt_length_of_crlf_at hcrlf))) h
  obtain ⟨hfrom, hbyte, -, hbefore⟩ := strchr_eq_some h
  rw [List.getElem?_set_ne (Nat.ne_of_gt hlt)] at hbyte
  refine ⟨hfrom, hlt, hbyte, fun j hj hjc => ?_⟩
  have hother := (hbefore j hj hjc).1
  rwa [List.getElem?_set_ne (by omega)] at hother

/-! ## The program does what the parser does -/

/-- The test for an empty line. -/
theorem crlf_prefix_iff :
    crlf <+: cstr buffer pos ↔ byteAt buffer pos = 13 ∧ byteAt buffer (pos + 1) = 10 := by
  constructor
  · intro h
    rw [cstr_eq] at h
    split at h
    · exact absurd (List.prefix_nil.mp h) (by decide)
    · obtain ⟨hfirst, h⟩ := List.cons_prefix_cons.mp h
      rw [cstr_eq] at h
      split at h
      · exact absurd (List.prefix_nil.mp h) (by decide)
      · exact ⟨hfirst.symm, (List.cons_prefix_cons.mp h).1.symm⟩
  · rintro ⟨hfirst, hsecond⟩
    rw [cstr_eq, cstr_eq, hfirst, hsecond]
    exact ⟨_, rfl⟩

/-- A request line is read and cut inside of the buffer. -/
theorem request_line_implements (buffer : Bytes) :
    Implements (Separator buffer) parseRequestLineInPlace buffer (parseRequestLine buffer) := by
  refine Implements.find (Memory.yields_strstr (by decide) (by decide) (Nat.zero_le _)) ?_
  intro lineEnd hline
  have hfirstLine := Line.request hline
  have hend := lt_length_of_crlf_at (strstr_eq_some hline).2
  refine Implements.guarded fun _ => Implements.cut (Nat.lt_of_succ_lt hend)
    hfirstLine.separator ?_
  refine Implements.find (Memory.yields_strchr (by decide) (Nat.zero_le _)) ?_
  intro space hspace
  obtain ⟨hlt, hbyte, hcount⟩ := first_space hline hspace
  refine Implements.cut (by rw [List.length_set]; omega)
    (.space hfirstLine hlt hbyte (by omega)) ?_
  refine Implements.read (Memory.yields_load (Nat.zero_le _)) (Implements.guarded fun _ => ?_)
  refine Implements.read (Memory.yields_all_from isUpper (Nat.zero_le _))
    (Implements.guarded fun _ => ?_)
  refine Implements.find (Memory.yields_strchr (by decide) (by simp; omega)) ?_
  intro space' hspace'
  obtain ⟨-, hlt', hbyte', hcount'⟩ := second_space hline hspace hspace'
  refine Implements.cut (by simp; omega) (.space hfirstLine hlt' hbyte' (by omega)) ?_
  have hhttp := @Memory.yields_match_at (ascii "HTTP/") (by decide)
    (((buffer.set lineEnd 0).set space 0).set space' 0) (space' + 1) (by simp; omega)
  rw [← strncmp_eq_decide] at hhttp
  exact Implements.read hhttp (Implements.guarded fun _ => Memory.implements_pure _)

/-- The line behind a line, found in a buffer that is still untouched from there on. -/
theorem Line.next (h : Line buffer start stop)
    (hsame : cut.drop (stop + 2) = buffer.drop (stop + 2))
    (hline : strstr cut (stop + 2) crlf = some lineEnd) : Line buffer (stop + 2) lineEnd := by
  refine .header h ?_
  rwa [strstr, cstr, ← hsame]

/-- Buffers that agree from a place on agree from every later one. -/
theorem drop_eq_of_le {p : Nat} (hpi : p ≤ i) (h : cut.drop p = buffer.drop p) :
    cut.drop i = buffer.drop i := by
  obtain ⟨k, rfl⟩ := Nat.exists_eq_add_of_le hpi
  rw [← List.drop_drop, h, List.drop_drop]

/-- The parsing of a header line in place writes at separators only, and comes to what the function
does. -/
theorem header_line_implements (hprevious : Line buffer start stop)
    (hsame : cut.drop (stop + 2) = buffer.drop (stop + 2))
    (hline : strstr cut (stop + 2) crlf = some lineEnd) :
    Implements (Separator buffer) (parseHeaderLineInPlace (stop + 2) lineEnd) cut
      (parseHeaderLine cut (stop + 2) lineEnd) := by
  have hget {j : Nat} (hj : stop + 2 ≤ j) : cut[j]? = buffer[j]? := by
    rw [← List.head?_drop, ← List.head?_drop, drop_eq_of_le hj hsame]
  have hthis := hprevious.next hsame hline
  have hend := lt_length_of_crlf_at (strstr_eq_some hline).2
  refine Implements.cut (Nat.lt_of_succ_lt hend) hthis.separator ?_
  refine Implements.find (Memory.yields_strchr (by decide) ?_) ?_
  · have := hthis.crlf_prefix.1
    rw [List.length_set]
    omega
  intro colon hcolon
  obtain ⟨hfrom, hlt, hbyte, hbefore⟩ := first_colon hline hcolon
  refine Implements.cut (by rw [List.length_set]; omega)
    (.colon hthis (Nat.succ_pos _) hfrom hlt (hget hfrom ▸ hbyte) ?_) ?_
  · intro j hj hjc
    rw [← hget hj]
    exact hbefore j hj hjc
  refine Implements.read (Memory.yields_skip_while isSpace ?_) (Memory.implements_pure _)
  simp only [List.length_set]
  omega

/-- What a header line gives, and what it leaves of the buffer. -/
theorem parse_header_line_eq_some (hline : strstr cut cursor crlf = some lineEnd)
    (h : parseHeaderLine cut cursor lineEnd = some (cut', header)) :
    ∃ colon, cursor ≤ colon ∧ colon < lineEnd ∧ cut' = (cut.set lineEnd 0).set colon 0 ∧
      header = { field := cursor, value := skipSpaces cut' (colon + 1) } := by
  simp only [parseHeaderLine, Option.bind_eq_bind, Option.bind_eq_some_iff] at h
  obtain ⟨colon, hcolon, h⟩ := h
  cases h
  obtain ⟨hfrom, hlt, -⟩ := first_colon hline hcolon
  exact ⟨colon, hfrom, hlt, rfl, rfl⟩

/-- A header line is cut in front of its end only. -/
theorem parse_header_line_drop (hline : strstr cut cursor crlf = some lineEnd)
    (h : parseHeaderLine cut cursor lineEnd = some (cut', header)) :
    cut'.drop (lineEnd + 2) = cut.drop (lineEnd + 2) := by
  obtain ⟨colon, -, hlt, rfl, -⟩ := parse_header_line_eq_some hline h
  rw [List.drop_set_of_lt (by omega), List.drop_set_of_lt (by omega)]

/-- What the request line gives, and what it leaves of the buffer. -/
theorem parse_request_line_eq_some (h : parseRequestLine buffer = some (cut, request, lineEnd)) :
    strstr buffer 0 crlf = some lineEnd ∧ ∃ space space', space < space' ∧ space' < lineEnd ∧
      cut = ((buffer.set lineEnd 0).set space 0).set space' 0 ∧
      request = { method := 0, path := space + 1, version := space' + 1, headers := [] } := by
  simp only [parseRequestLine, Option.bind_eq_bind, Option.bind_eq_some_iff] at h
  obtain ⟨lineEnd', hline, -, -, space, hspace, -, -, -, -, space', hspace', -, -, h⟩ := h
  cases h
  obtain ⟨hlt, hlt', -⟩ := second_space hline hspace hspace'
  exact ⟨hline, space, space', hlt, hlt', rfl, rfl⟩

/-- The request line is cut in front of its end only. -/
theorem parse_request_line_drop (h : parseRequestLine buffer = some (cut, request, lineEnd)) :
    cut.drop (lineEnd + 2) = buffer.drop (lineEnd + 2) := by
  obtain ⟨-, space, space', hlt, hlt', rfl, -⟩ := parse_request_line_eq_some h
  rw [List.drop_set_of_lt (by omega), List.drop_set_of_lt (by omega),
    List.drop_set_of_lt (by omega)]

/-- The cursor stands behind a line, and from there on the buffer is as it was. -/
theorem headers_implements {fuel : Nat} (hprevious : Line buffer start stop)
    (hsame : cut.drop (stop + 2) = buffer.drop (stop + 2)) (hlength : cut.length = buffer.length)
    (hfuel : buffer.length - (stop + 2) < fuel) (headers : List HttpHeader) :
    Implements (Separator buffer) (parseHeadersInPlace buffer.length fuel (stop + 2) headers) cut
      (parseHeaders buffer.length fuel cut (stop + 2) headers) := by
  induction fuel generalizing cut start stop headers with
  | zero => exact absurd hfuel (Nat.not_lt_zero _)
  | succ fuel ih =>
      rw [parseHeadersInPlace, parseHeaders]
      by_cases hcursor : stop + 2 < buffer.length
      · rw [if_pos hcursor]
        have hmatch := @Memory.yields_match_at crlf (by decide) cut (stop + 2) (by omega)
        refine Implements.read hmatch ?_
        by_cases hempty : crlf <+: cstr cut (stop + 2)
        · rw [if_pos (decide_eq_true hempty),
            if_neg fun h => h.2 (crlf_prefix_iff.mp hempty)]
          exact Memory.implements_pure _
        · rw [if_neg (by simpa using hempty),
            if_pos ⟨hcursor, fun h => hempty (crlf_prefix_iff.mpr h)⟩]
          refine Implements.read
            (Memory.yields_strstr (by decide) (by decide) (by omega)) ?_
          cases hline : strstr cut (stop + 2) crlf with
          | none => exact Memory.implements_pure _
          | some lineEnd =>
              have hstep := header_line_implements hprevious hsame hline
              refine hstep.bind (fun hnone => ?_) fun cut' header hsome hlength' => ?_
              · simp only [hnone]
              · simp only [hsome]
                split
                · exact Memory.implements_failure
                · have hnext := hprevious.next hsame hline
                  have hmoved := hnext.crlf_prefix.1
                  have hrest := (parse_header_line_drop hline hsome).trans
                    (drop_eq_of_le (Nat.le_add_right_of_le hmoved) hsame)
                  exact ih hnext hrest (hlength'.trans hlength) (by omega) _
      · rw [if_neg hcursor, if_neg fun h => hcursor h.1]
        exact Memory.implements_pure _

/-- The parsing of a request in place writes at separators only, and comes to what the function
does. -/
theorem request_implements (buffer : Bytes) :
    Implements (Separator buffer) (parseHttpRequestInPlace buffer.length) buffer
      (parseHttpRequest buffer) := by
  refine (request_line_implements buffer).bind (fun hnone => ?_)
    fun cut ⟨request, lineEnd⟩ hsome hlength => ?_
  · rw [parseHttpRequest, hnone]
    rfl
  · have hline := (parse_request_line_eq_some hsome).1
    have hheaders := headers_implements (.request hline) (parse_request_line_drop hsome) hlength
      (Nat.lt_succ_of_le (Nat.sub_le _ _)) []
    refine hheaders.bind (fun hnone => ?_) fun cut' headers hsome' _ => ?_
    · rw [parseHttpRequest, hsome]
      show parseHeaders cut.length _ _ _ _ >>= _ = none
      rw [hlength, hnone]
      rfl
    · rw [parseHttpRequest, hsome]
      show Implements _ _ _ (parseHeaders cut.length _ _ _ _ >>= _)
      rw [hlength, hsome']
      exact Memory.implements_pure _

/-! ## What the pointers of a request point to -/

/-- The pointers that a request holds. -/
def HttpRequest.pointers (request : HttpRequest) : List Nat :=
  request.method :: request.path :: request.version ::
    request.headers.flatMap fun header => [header.field, header.value]

/-- Both strings of a header start within these bytes or right behind them. -/
def HttpHeader.Within (header : HttpHeader) (len : Nat) : Prop :=
  header.field ≤ len ∧ header.value ≤ len

/-- Blanks are skipped inside the buffer. -/
theorem skip_spaces_le (h : pos ≤ buffer.length) : skipSpaces buffer pos ≤ buffer.length := by
  have hspaces := (List.takeWhile_prefix isSpace (l := cstr buffer pos)).length_le
  have hcstr : (cstr buffer pos).length ≤ (buffer.drop pos).length :=
    (List.takeWhile_prefix _).length_le
  rw [List.length_drop] at hcstr
  unfold skipSpaces
  omega

/-- Name and value of a header lie inside the buffer. -/
theorem parse_header_line_inside (hline : strstr cut cursor crlf = some lineEnd)
    (h : parseHeaderLine cut cursor lineEnd = some (cut', header)) : header.Within cut.length := by
  have hlength := (parse_header_line_cut h).length_eq
  have hend := lt_length_of_crlf_at (strstr_eq_some hline).2
  obtain ⟨colon, hfrom, hlt, -, rfl⟩ := parse_header_line_eq_some hline h
  refine ⟨by show cursor ≤ _; omega, ?_⟩
  rw [← hlength]
  exact skip_spaces_le (by omega)

/-- The header loop adds headers that lie inside of the buffer, and not too many. -/
theorem parse_headers_inside {len fuel : Nat} {headers headers' : List HttpHeader}
    (h : parseHeaders len fuel cut cursor headers = some (cut', headers'))
    (hcount : headers.length ≤ maxHeaders)
    (hinside : ∀ header ∈ headers, header.Within cut.length) :
    headers'.length ≤ maxHeaders ∧ ∀ header ∈ headers', header.Within cut.length := by
  induction fuel generalizing cut cursor headers with
  | zero => cases h
  | succ fuel ih =>
      rw [parseHeaders] at h
      split at h
      · split at h
        · cases h
          exact ⟨hcount, hinside⟩
        · rename_i hline
          split at h
          · cases h
          · rename_i middle header hheader
            split at h
            · cases h
            · rename_i hroom
              have hlength := (parse_header_line_cut hheader).length_eq
              have hnew := parse_header_line_inside hline hheader
              rw [← hlength] at hinside hnew ⊢
              refine ih h ?_ ?_
              · rw [List.length_append, List.length_singleton]
                omega
              · intro other hother
                rcases List.mem_append.mp hother with hold | hlast
                · exact hinside other hold
                · rwa [List.mem_singleton.mp hlast]
      · cases h
        exact ⟨hcount, hinside⟩

/-- An accepted request has at most `MAX_HEADERS` headers, and its pointers lie inside of the
array, the terminator included. -/
theorem parse_http_request_inside (h : parseHttpRequest buffer = some (cut, request)) :
    request.headers.length ≤ maxHeaders ∧ ∀ p ∈ request.pointers, p ≤ buffer.length := by
  simp only [parseHttpRequest, Option.bind_eq_bind, Option.bind_eq_some_iff] at h
  obtain ⟨⟨lineCut, lineRequest, lineEnd⟩, hline, ⟨cut', headers⟩, hheaders, h⟩ := h
  cases h
  have hlength := (parse_request_line_cut hline).2.length_eq.trans List.length_set
  obtain ⟨hcount, hinside⟩ := parse_headers_inside hheaders (Nat.zero_le _)
    fun _ hnone => absurd hnone List.not_mem_nil
  rw [hlength] at hinside
  obtain ⟨hend, space, space', hlt, hlt', -, rfl⟩ := parse_request_line_eq_some hline
  have hlast := lt_length_of_crlf_at (strstr_eq_some hend).2
  refine ⟨hcount, fun p hp => ?_⟩
  simp only [HttpRequest.pointers, List.mem_cons, List.mem_flatMap, List.not_mem_nil,
    or_false] at hp
  rcases hp with rfl | rfl | rfl | ⟨header, hheader, rfl | rfl⟩
  · exact Nat.zero_le _
  · omega
  · omega
  · exact (hinside header hheader).1
  · exact (hinside header hheader).2

/-- Every array is parsed without an access outside of it. Only separators are overwritten, and
each pointer of an accepted request is the start of a string that ends inside of the array. -/
theorem parse_http_request_in_place (buffer : Bytes) :
    ∃ result cut, (parseHttpRequestInPlace buffer.length).run (buffer ++ [0]) =
        some (result, cut ++ [0]) ∧
      cut.length = buffer.length ∧
      (∀ i : Nat, cut[i]? ≠ buffer[i]? → cut[i]? = some 0 ∧ Separator buffer i) ∧
      (∀ request, result = some request → request.headers.length ≤ maxHeaders ∧
        ∀ p ∈ request.pointers, ∃ stop, p ≤ stop ∧ (cut ++ [0])[stop]? = some 0) ∧
      parseHttpRequest buffer = result.map (cut, ·) := by
  obtain ⟨result, cut, hrun, hresult, hlength, hchanged⟩ := request_implements buffer
  refine ⟨result, cut, hrun, hlength, hchanged, ?_, hresult⟩
  rintro request rfl
  obtain ⟨hcount, hpointers⟩ := parse_http_request_inside hresult
  refine ⟨hcount, fun p hp => ⟨cut.length, hlength ▸ hpointers p hp, ?_⟩⟩
  rw [List.getElem?_append_right (Nat.le_refl _), Nat.sub_self]
  rfl

end Emme.Http

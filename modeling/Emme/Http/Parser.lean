import Emme.Lib.CString
import Mathlib.Data.Option.Basic

/-!
# The HTTP/1.1 request parser

`parse_http_request` works in place: it writes a NUL byte behind every token it recognises and
keeps pointers to the tokens. Here the buffer is threaded through the parser and a pointer is an
offset into it. What matters to the callers that read the buffer again is how it was cut:
`parse_http_request_cut`.
-/

namespace Emme.Http

open CString

/-- `MAX_REQUEST_LINE`. -/
def maxRequestLine : Nat := 2048

/-- `MAX_HEADERS`. -/
def maxHeaders : Nat := 20

/-- A header line: where its two C strings start. -/
structure HttpHeader where
  field : Nat
  value : Nat
  deriving DecidableEq, Repr

/-- A parsed request: where its C strings start in the buffer. -/
structure HttpRequest where
  method : Nat
  path : Nat
  version : Nat
  headers : List HttpHeader
  deriving DecidableEq, Repr

/-- `isupper` in the C locale. -/
def isUpper (b : UInt8) : Bool := 65 ≤ b && b ≤ 90

/-- `isspace` in the C locale. -/
def isSpace (b : UInt8) : Bool := b = 32 || (9 ≤ b && b ≤ 13)

/-- The request line `METHOD SP PATH SP VERSION CRLF`: the cut buffer, the three tokens and the
end of the line. -/
def parseRequestLine (buffer : Bytes) : Option (Bytes × HttpRequest × Nat) := do
  let lineEnd ← strstr buffer 0 crlf
  guard (lineEnd ≤ maxRequestLine)
  let buffer := buffer.set lineEnd 0
  let space ← strchr buffer 0 32
  let buffer := buffer.set space 0
  guard (byteAt buffer 0 ≠ 0)
  guard ((cstr buffer 0).all isUpper)
  let path := space + 1
  let space ← strchr buffer path 32
  let buffer := buffer.set space 0
  let version := space + 1
  guard (strncmpEq (cstr buffer version) (ascii "HTTP/") 5)
  some (buffer, { method := 0, path, version, headers := [] }, lineEnd)

/-- The first offset from `pos` on that is not white space. -/
def skipSpaces (buffer : Bytes) (pos : Nat) : Nat :=
  pos + ((cstr buffer pos).takeWhile isSpace).length

/-- One header line: it is cut at its end and at its first colon. -/
def parseHeaderLine (buffer : Bytes) (cursor lineEnd : Nat) : Option (Bytes × HttpHeader) := do
  let buffer := buffer.set lineEnd 0
  let colon ← strchr buffer cursor 58
  let buffer := buffer.set colon 0
  some (buffer, { field := cursor, value := skipSpaces buffer (colon + 1) })

/-- The header loop, from `cursor` on. Every round moves the cursor, so `fuel` rounds are enough
for a buffer of fewer bytes (`parse_headers_fuel`). -/
def parseHeaders (len : Nat) :
    Nat → Bytes → Nat → List HttpHeader → Option (Bytes × List HttpHeader)
  | 0, _, _, _ => none
  | fuel + 1, buffer, cursor, headers =>
      if cursor < len ∧ ¬ (byteAt buffer cursor = 13 ∧ byteAt buffer (cursor + 1) = 10) then
        match strstr buffer cursor crlf with
        -- a line without an end: the loop breaks and the request is accepted as it is
        | none => some (buffer, headers)
        | some lineEnd =>
            match parseHeaderLine buffer cursor lineEnd with
            | none => none
            | some (buffer, header) =>
                if maxHeaders ≤ headers.length then none
                else parseHeaders len fuel buffer (lineEnd + 2) (headers ++ [header])
      else some (buffer, headers)

/-- `parse_http_request` on the bytes read: the buffer as the parser leaves it, and the request;
`none` is the return value `-1`. The correlation id is left out. -/
def parseHttpRequest (buffer : Bytes) : Option (Bytes × HttpRequest) := do
  let (buffer, request, lineEnd) ← parseRequestLine buffer
  let (buffer, headers) ← parseHeaders buffer.length (buffer.length + 1) buffer (lineEnd + 2) []
  some (buffer, { request with headers })

/-- The strings of a request, as the handlers read them. -/
structure RequestText where
  method : Bytes
  path : Bytes
  version : Bytes
  headers : List (Bytes × Bytes)
  deriving DecidableEq, Repr

/-- Read a request's strings from the buffer it points into. -/
def HttpRequest.text (request : HttpRequest) (buffer : Bytes) : RequestText where
  method := cstr buffer request.method
  path := cstr buffer request.path
  version := cstr buffer request.version
  headers := request.headers.map fun header =>
    (cstr buffer header.field, cstr buffer header.value)

/-! ## Enough rounds -/

variable {buffer cut : Bytes} {cursor : Nat}

/-- The header loop has ended long before its rounds are used up. -/
theorem parse_headers_fuel {len fuel : Nat} {headers : List HttpHeader} (h : len - cursor < fuel) :
    parseHeaders len (fuel + 1) buffer cursor headers =
      parseHeaders len fuel buffer cursor headers := by
  induction fuel generalizing buffer cursor headers with
  | zero => exact absurd h (Nat.not_lt_zero _)
  | succ fuel ih =>
      rw [parseHeaders, parseHeaders]
      split
      · rename_i hcursor
        split
        · rfl
        · rename_i lineEnd hline
          have hmoved := (strstr_eq_some hline).1
          split
          · rfl
          · split
            · rfl
            · exact ih (by omega)
      · rfl

/-! ## How the buffer is cut -/

/-- A header line is parsed by cutting the buffer. -/
theorem parse_header_line_cut {lineEnd : Nat} {header : HttpHeader}
    (h : parseHeaderLine buffer cursor lineEnd = some (cut, header)) : CutFrom buffer cut := by
  simp only [parseHeaderLine, Option.bind_eq_bind, Option.bind_eq_some_iff] at h
  obtain ⟨colon, -, h⟩ := h
  cases h
  exact (CutFrom.set _ _).trans (CutFrom.set _ _)

/-- All header lines are. -/
theorem parse_headers_cut {len fuel : Nat} {headers headers' : List HttpHeader}
    (h : parseHeaders len fuel buffer cursor headers = some (cut, headers')) :
    CutFrom buffer cut := by
  induction fuel generalizing buffer cursor headers with
  | zero => cases h
  | succ fuel ih =>
      rw [parseHeaders] at h
      split at h
      · split at h
        · cases h
          exact CutFrom.refl _
        · split at h
          · cases h
          · rename_i hheader
            split at h
            · cases h
            · exact (parse_header_line_cut hheader).trans (ih h)
      · cases h
        exact CutFrom.refl _

/-- The request line ends at a carriage return, and that byte is overwritten. -/
theorem parse_request_line_cut {request : HttpRequest} {lineEnd : Nat}
    (h : parseRequestLine buffer = some (cut, request, lineEnd)) :
    buffer[lineEnd]? = some 13 ∧ CutFrom (buffer.set lineEnd 0) cut := by
  simp only [parseRequestLine, Option.bind_eq_bind, Option.bind_eq_some_iff] at h
  obtain ⟨lineEnd', hline, -, -, space, -, -, -, -, -, space', -, -, -, h⟩ := h
  cases h
  obtain ⟨rest, hrest⟩ := (strstr_eq_some hline).2
  refine ⟨?_, (CutFrom.set _ _).trans (CutFrom.set _ _)⟩
  rw [← List.head?_drop, ← hrest]
  rfl

/-- An accepted request leaves the buffer cut, and the end of the request line is one of the
bytes that are gone. -/
theorem parse_http_request_cut {request : HttpRequest}
    (h : parseHttpRequest buffer = some (cut, request)) :
    CutFrom buffer cut ∧ ∃ i : Nat, buffer[i]? = some 13 ∧ cut[i]? = some 0 := by
  simp only [parseHttpRequest, Option.bind_eq_bind, Option.bind_eq_some_iff] at h
  obtain ⟨⟨lineCut, lineRequest, lineEnd⟩, hline, ⟨cut', headers⟩, hheaders, h⟩ := h
  cases h
  obtain ⟨hcr, hset⟩ := parse_request_line_cut hline
  have hcut := hset.trans (parse_headers_cut hheaders)
  refine ⟨(CutFrom.set _ _).trans hcut, lineEnd, hcr, hcut.nul ?_⟩
  rw [List.getElem?_set_self', hcr]
  rfl

end Emme.Http

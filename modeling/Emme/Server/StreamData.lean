import Emme.Http2.BodyReaders
import Emme.Lib.Heap
import Emme.Server.FrameHeaders

/-!
# The data of an HTTP/2 stream

The library keeps a pointer to a `StreamData` for every stream, which the callbacks allocate, fill,
read and free. They are programs on a heap in which using a block that has been freed is a fault;
the outcome of every allocation is an input. `Exchange` is what they are for: the request and the
response of one stream, without blocks.
-/

namespace Emme.Server

open Blocks CString Cursor Emme.Http2 Emme.Router

/-! ## The callbacks -/

/-- `StreamData`; of the request, the three strings that are allocated. -/
structure StreamData where
  method : Option Nat
  path : Option Nat
  version : Option Nat
  resp : Option Nat
  respSent : UInt64
  deriving DecidableEq

/-- What a block holds. -/
inductive Cell where
  | text (bytes : Bytes)
  | response (resp : Http2Response)
  | data (record : StreamData)
  deriving DecidableEq

/-- `NGHTTP2_ERR_CALLBACK_FAILURE`. -/
def callbackFailure : Int := -902

/-- Which of the allocations of `on_header_callback` succeed: the `StreamData`, its version, and
the copy of the value. -/
structure HeaderMemory where
  stream : Bool := true
  version : Bool := true
  text : Bool := true
  deriving DecidableEq, Repr

/-- A block that is no `StreamData` cannot be read as one. -/
def readData (p : Nat) : Program Cell StreamData := do
  match ← read p with
  | .data record => pure record
  | _ => fault

/-- The response record at a pointer. -/
def readResponse (p : Nat) : Program Cell Http2Response := do
  match ← read p with
  | .response resp => pure resp
  | _ => fault

/-- A string, or `NULL`. -/
def readText (p : Option Nat) : Program Cell (Option Bytes) :=
  match p with
  | none => pure none
  | some p => do
      match ← read p with
      | .text bytes => pure (some bytes)
      | _ => fault

/-- The two fields that are kept. -/
inductive RequestField where
  | method
  | path
  deriving DecidableEq, Repr

/-- The comparisons end with the name of the field: any beginning of `:method` or `:path` that is
not empty is taken for it. -/
def requestField (name : Bytes) : Option RequestField :=
  if name.head? = some 58 then
    if strncmpEq (cstr name 0) (ascii ":method") name.length then some .method
    else if strncmpEq (cstr name 0) (ascii ":path") name.length then some .path
    else none
  else none

/-- The pointer to a field of the request. -/
def StreamData.get (record : StreamData) : RequestField → Option Nat
  | .method => record.method
  | .path => record.path

/-- The pointer to a field of the request is replaced. -/
def StreamData.set (record : StreamData) (p : Option Nat) : RequestField → StreamData
  | .method => { record with method := p }
  | .path => { record with path := p }

/-- The `StreamData` of the stream, allocated if there is none yet. -/
def streamData (userData : Option Nat) (memory : HeaderMemory) : Program Cell (Option Nat) :=
  match userData with
  | some data => pure (some data)
  | none => do
      match ← alloc (.data ⟨none, none, none, none, 0⟩) memory.stream with
      | none => pure none
      | some data => do
          match ← alloc (.text (ascii "HTTP/2")) memory.version with
          | none => do
              free (some data)
              pure none
          | some version => do
              write data (.data ⟨none, none, some version, none, 0⟩)
              pure (some data)

/-- The value of a field, copied by `strndup`, takes the place of the last one. -/
def storeField (data : Nat) (field : RequestField) (value : Bytes) (succeeds : Bool) :
    Program Cell Int := do
  let record ← readData data
  free (record.get field)
  let text ← alloc (.text (cstr value 0)) succeeds
  write data (.data (record.set text field))
  pure (if text.isSome then 0 else callbackFailure)

/-- `on_header_callback` for a field of a request: the code it returns and the stream's pointer. -/
def onHeader (userData : Option Nat) (name value : Bytes) (memory : HeaderMemory) :
    Program Cell (Int × Option Nat) := do
  match ← streamData userData memory with
  | none => pure (callbackFailure, userData)
  | some data =>
      match requestField name with
      | some field => do
          let code ← storeField data field value memory.text
          pure (code, some data)
      | none => pure (0, some data)

/-- `route_request_tls`: what it makes of the record, given the path of the request. -/
abbrev RouteResponse := Option Bytes → Http2Response → Http2Response × Bool

/-- The response record of the stream, allocated if there is none yet. -/
def responseRecord (resp : Option Nat) (allocated : Bool) : Program Cell (Option Nat) :=
  match resp with
  | some p => pure (some p)
  | none => alloc (.response .zero) allocated

/-- The response is made in its record; with it the body is to be read from its start. -/
def respond (complete : Http2Response → Http2Response) (data : Nat) (record : StreamData)
    (p : Nat) : Program Cell (Option (List Header)) := do
  write data (.data { record with resp := some p, respSent := 0 })
  let before ← readResponse p
  write p (.response (complete before))
  pure (some (complete before).headers)

/-- `on_frame_recv_callback` for the headers of a request: the header list that is submitted. The
strings of the request are read for the log. -/
def onRequest (route : RouteResponse) (userData : Option Nat) (allocated : Bool) :
    Program Cell (Option (List Header)) :=
  match userData with
  | none => pure none
  | some data => do
      let record ← readData data
      let _ ← readText record.method
      let path ← readText record.path
      let _ ← readText record.version
      match ← responseRecord record.resp allocated with
      | none => pure none
      | some p =>
          respond (fun before => submittedResponse (completeResponse (route path before))) data
            record p

/-- The length of a body that fits the record is a `size_t`. -/
theorem taken_lt_size (body : Bytes) : (body.take bodySize).length < 2 ^ 64 :=
  Nat.lt_of_le_of_lt (List.length_take_le _ _) (by decide)

/-- The body of a response as `http2_body_read_callback` finds it: an array of `BUFFER_SIZE`
bytes. -/
def bodyOf (resp : Http2Response) : Body where
  bytes := resp.body.take bodySize
  len := UInt64.ofNat (resp.body.take bodySize).length
  len_eq := UInt64.toNat_ofNat_of_lt' (taken_lt_size resp.body)

/-- The cursor behind a call of `http2_body_read_callback`. -/
def sentAfter (resp : Http2Response) (sent length : UInt64) : UInt64 :=
  advance sent (atMost ((bodyOf resp).len - sent) length)

/-- What a call of `http2_body_read_callback` hands out. -/
def pieceAt (resp : Http2Response) (sent length : UInt64) : Piece UInt8 :=
  (http2BodyReadCallback (some ⟨some (bodyOf resp), sent⟩) length).1

/-- `http2_body_read_callback`. -/
def onBodyRead (source : Option Nat) (length : UInt64) : Program Cell (Piece UInt8) :=
  match source with
  | none => pure ⟨[], true⟩
  | some data => do
      let record ← readData data
      match record.resp with
      | none => pure ⟨[], true⟩
      | some p => do
          let resp ← readResponse p
          write data (.data { record with respSent := sentAfter resp record.respSent length })
          pure (pieceAt resp record.respSent length)

/-- `on_stream_close_callback`. -/
def onStreamClose (userData : Option Nat) : Program Cell Unit :=
  match userData with
  | none => pure ()
  | some data => do
      let record ← readData data
      free record.method
      free record.path
      free record.version
      free record.resp
      free (some data)

/-! ## The exchange of a stream -/

/-- What there is of the request and the response of a stream. `begun` says that a field of the
request has come, and `submitted` that the library has the response. -/
structure Exchange where
  begun : Bool
  method : Option Bytes
  path : Option Bytes
  response : Option Http2Response
  sent : UInt64
  submitted : Bool
  deriving DecidableEq

/-- A new stream. -/
def Exchange.fresh : Exchange := ⟨false, none, none, none, 0, false⟩

/-- A field of the request is replaced. -/
def Exchange.set (exchange : Exchange) (value : Option Bytes) : RequestField → Exchange
  | .method => { exchange with method := value }
  | .path => { exchange with path := value }

/-- A field of the request. -/
def Exchange.header (exchange : Exchange) (name value : Bytes) (memory : HeaderMemory) :
    Int × Exchange :=
  if exchange.begun || (memory.stream && memory.version) then
    let exchange := { exchange with begun := true }
    match requestField name with
    | some field =>
        if memory.text then (0, exchange.set (some (cstr value 0)) field)
        else (callbackFailure, exchange.set none field)
    | none => (0, exchange)
  else (callbackFailure, exchange)

/-- The request is complete. -/
def Exchange.request (route : RouteResponse) (exchange : Exchange) (allocated submitted : Bool) :
    Option (List Header) × Exchange :=
  if exchange.begun && (exchange.response.isSome || allocated) then
    let resp := submittedResponse
      (completeResponse (route exchange.path (exchange.response.getD .zero)))
    (some resp.headers,
      { exchange with
        response := some resp, sent := 0, submitted := exchange.submitted || submitted })
  else (none, exchange)

/-- The library asks for a piece of the body. -/
def Exchange.read (exchange : Exchange) (length : UInt64) : Piece UInt8 × Exchange :=
  match exchange.response with
  | some resp =>
      if exchange.submitted then
        (pieceAt resp exchange.sent length,
          { exchange with sent := sentAfter resp exchange.sent length })
      else (⟨[], true⟩, exchange)
  | none => (⟨[], true⟩, exchange)

/-! ## The blocks of a stream -/

/-- The block of an optional part. -/
def cellsOf {α : Type} (entry : Option (Nat × α)) (cell : α → Cell) : List (Nat × Cell) :=
  entry.toList.map fun part => (part.1, cell part.2)

/-- The blocks of a stream that has a `StreamData`. -/
structure Placed where
  data : Nat
  version : Nat
  method : Option (Nat × Bytes)
  path : Option (Nat × Bytes)
  response : Option (Nat × Http2Response)
  sent : UInt64

/-- The `StreamData` that points to the blocks. -/
def Placed.record (placed : Placed) : StreamData where
  method := placed.method.map Prod.fst
  path := placed.path.map Prod.fst
  version := some placed.version
  resp := placed.response.map Prod.fst
  respSent := placed.sent

/-- The blocks that the `StreamData` points to. -/
def Placed.parts (placed : Placed) : List (Nat × Cell) :=
  cellsOf placed.method .text ++ (cellsOf placed.path .text ++
    (cellsOf (some (placed.version, ascii "HTTP/2")) .text ++ cellsOf placed.response .response))

/-- All blocks of the stream. -/
def Placed.cells (placed : Placed) : List (Nat × Cell) :=
  (placed.data, .data placed.record) :: placed.parts

/-- The exchange that the blocks stand for. -/
def Placed.Stands (placed : Placed) (exchange : Exchange) : Prop :=
  exchange.begun = true ∧ exchange.method = placed.method.map Prod.snd ∧
    exchange.path = placed.path.map Prod.snd ∧
    exchange.response = placed.response.map Prod.snd ∧ exchange.sent = placed.sent

/-- The blocks of a stream, with the pointers that the library has. -/
inductive Represents : Option Nat → Option Nat → Exchange → List (Nat × Cell) → Prop
  | fresh : Represents none none .fresh []
  | placed (placed : Placed) (exchange : Exchange) (source : Option Nat)
      (hstands : placed.Stands exchange)
      (hsource : source = if exchange.submitted then some placed.data else none) :
      Represents (some placed.data) source exchange placed.cells

variable {p : Nat}

section Rules

variable {α : Type} {rest : List (Nat × Cell)} {post : α → List (Nat × Cell) → Prop}

/-- The rule of a read of a `StreamData`. -/
theorem ensures_read_data {record : StreamData} {next : StreamData → Program Cell α}
    (h : Ensures ((p, .data record) :: rest) (next record) post) :
    Ensures ((p, .data record) :: rest) (readData p >>= next) post := by
  rw [readData, bind_assoc]
  refine ensures_read ?_
  rw [pure_bind]
  exact h

/-- The rule of a read of a response record. -/
theorem ensures_read_response {resp : Http2Response} {next : Http2Response → Program Cell α}
    (h : Ensures ((p, .response resp) :: rest) (next resp) post) :
    Ensures ((p, .response resp) :: rest) (readResponse p >>= next) post := by
  rw [readResponse, bind_assoc]
  refine ensures_read ?_
  rw [pure_bind]
  exact h

variable {next : Option Bytes → Program Cell α}

/-- The rule of a read of a string that may be `NULL`. -/
theorem ensures_read_text {entry : Option (Nat × Bytes)}
    (h : Ensures (cellsOf entry .text ++ rest) (next (entry.map Prod.snd)) post) :
    Ensures (cellsOf entry .text ++ rest) (readText (entry.map Prod.fst) >>= next) post := by
  cases entry with
  | none =>
      simp only [readText, Option.map_none]
      rw [pure_bind]
      exact h
  | some entry =>
      simp only [readText, Option.map_some]
      rw [bind_assoc]
      refine ensures_read ?_
      rw [pure_bind]
      exact h

/-- Reading a string somewhere among the blocks. -/
theorem ensures_read_text_of {cells : List (Nat × Cell)} {entry : Option (Nat × Bytes)}
    (hperm : cells.Perm (cellsOf entry .text ++ rest))
    (h : Ensures cells (next (entry.map Prod.snd)) post) :
    Ensures cells (readText (entry.map Prod.fst) >>= next) post :=
  (ensures_read_text (h.perm hperm.symm)).perm hperm

/-- The rule of `free` for a part that may be `NULL`. -/
theorem ensures_free_part {β : Type} {entry : Option (Nat × β)} {cell : β → Cell}
    {next : Unit → Program Cell α} (h : Ensures rest (next ()) post) :
    Ensures (cellsOf entry cell ++ rest) (free (entry.map Prod.fst) >>= next) post := by
  cases entry with
  | none => exact ensures_free_null h
  | some entry => exact ensures_free h

end Rules

/-! ## What the callbacks do to the blocks of a stream -/

/-- The block of a field of the request. -/
def Placed.entry (placed : Placed) : RequestField → Option (Nat × Bytes)
  | .method => placed.method
  | .path => placed.path

/-- The block of a field is replaced. -/
def Placed.put (placed : Placed) (entry : Option (Nat × Bytes)) : RequestField → Placed
  | .method => { placed with method := entry }
  | .path => { placed with path := entry }

/-- The blocks besides that of a field and the `StreamData` itself. -/
def Placed.others (placed : Placed) : RequestField → List (Nat × Cell)
  | .method => cellsOf placed.path .text ++
      (cellsOf (some (placed.version, ascii "HTTP/2")) .text ++ cellsOf placed.response .response)
  | .path => cellsOf placed.method .text ++
      (cellsOf (some (placed.version, ascii "HTTP/2")) .text ++ cellsOf placed.response .response)

section Callbacks

variable {placed : Placed} {exchange : Exchange} {rest : List (Nat × Cell)}

/-- The block of a field stands first, then the `StreamData`. -/
theorem cells_perm_field (placed : Placed) (field : RequestField) (rest : List (Nat × Cell)) :
    (placed.cells ++ rest).Perm (cellsOf (placed.entry field) .text ++
      ((placed.data, .data placed.record) :: (placed.others field ++ rest))) := by
  refine List.perm_iff_count.mpr fun cell => ?_
  cases field <;>
    simp only [Placed.cells, Placed.parts, Placed.entry, Placed.others, List.count_append,
      List.count_cons] <;>
    omega

/-- The `StreamData` points to the block of a field. -/
theorem Placed.record_get (placed : Placed) (field : RequestField) :
    placed.record.get field = (placed.entry field).map Prod.fst := by
  cases field <;> rfl

/-- With the block of a field the pointer to it is replaced. -/
theorem Placed.record_put (placed : Placed) (entry : Option (Nat × Bytes)) (field : RequestField) :
    (placed.put entry field).record = placed.record.set (entry.map Prod.fst) field := by
  cases field <;> rfl

/-- The other blocks stay. -/
theorem Placed.others_put (placed : Placed) (entry : Option (Nat × Bytes)) (field : RequestField) :
    (placed.put entry field).others field = placed.others field := by
  cases field <;> rfl

/-- With the block of a field the field of the request is replaced. -/
theorem Placed.Stands.put (h : placed.Stands exchange) (entry : Option (Nat × Bytes))
    (field : RequestField) :
    (placed.put entry field).Stands (exchange.set (entry.map Prod.snd) field) := by
  obtain ⟨hbegun, hmethod, hpath, hresponse, hsent⟩ := h
  cases field with
  | method => exact ⟨hbegun, rfl, hpath, hresponse, hsent⟩
  | path => exact ⟨hbegun, hmethod, rfl, hresponse, hsent⟩

/-- The last value of the field is freed and the new one takes its place; without memory for it
the field is empty. -/
theorem store_field_ensures (h : placed.Stands exchange) (field : RequestField) (value : Bytes)
    (succeeds : Bool) :
    Ensures (placed.cells ++ rest) (storeField placed.data field value succeeds)
      fun code left =>
        code = (if succeeds then 0 else callbackFailure) ∧
          ∃ moved : Placed, moved.data = placed.data ∧
            moved.Stands (exchange.set (if succeeds then some (cstr value 0) else none) field) ∧
            left.Perm (moved.cells ++ rest) := by
  -- the blocks after the field has been set to `entry`
  have hput (entry : Option (Nat × Bytes)) :
      ((placed.put entry field).cells ++ rest).Perm (cellsOf entry .text ++
        ((placed.data, .data (placed.record.set (entry.map Prod.fst) field)) ::
          (placed.others field ++ rest))) := by
    have hcells := cells_perm_field (placed.put entry field) field rest
    rw [Placed.record_put, Placed.others_put] at hcells
    cases field <;> exact hcells
  unfold storeField
  refine ensures_read_data ?_
  rw [Placed.record_get]
  refine Ensures.perm ?_ (cells_perm_field placed field rest)
  refine ensures_free_part ?_
  refine ensures_alloc (fun hsucceeds p => ?_) (fun hfails => ?_)
  · refine Ensures.perm (ensures_write (ensures_pure ?_)) (List.Perm.swap _ _ _)
    rw [hsucceeds]
    refine ⟨rfl, placed.put (some (p, cstr value 0)) field, ?_, h.put _ field, ?_⟩
    · cases field <;> rfl
    · exact (List.Perm.swap _ _ _).trans (hput (some (p, cstr value 0))).symm
  · refine ensures_write (ensures_pure ?_)
    rw [hfails]
    refine ⟨rfl, placed.put none field, ?_, h.put none field, (hput none).symm⟩
    cases field <;> rfl

/-- The blocks of the request. -/
def Placed.texts (placed : Placed) : List (Nat × Cell) :=
  cellsOf placed.method .text ++
    (cellsOf placed.path .text ++ cellsOf (some (placed.version, ascii "HTTP/2")) .text)

/-- The response record stands first, then the `StreamData`. -/
theorem cells_perm_response (placed : Placed) (rest : List (Nat × Cell)) :
    (placed.cells ++ rest).Perm (cellsOf placed.response .response ++
      ((placed.data, .data placed.record) :: (placed.texts ++ rest))) := by
  refine List.perm_iff_count.mpr fun cell => ?_
  simp only [Placed.cells, Placed.parts, Placed.texts, List.count_append, List.count_cons]
  omega

/-- A new `StreamData` has the version and nothing else. -/
def Placed.new (data version : Nat) : Placed := ⟨data, version, none, none, none, 0⟩

variable {userData source : Option Nat}

/-- The `StreamData` of a stream is there, or allocated if there is memory for it; if not, nothing
is left behind. -/
theorem stream_data_ensures {α : Type} {post : α → List (Nat × Cell) → Prop}
    {cells : List (Nat × Cell)} {memory : HeaderMemory} {next : Option Nat → Program Cell α}
    (h : Represents userData source exchange cells)
    (hplaced : ∀ placed : Placed, placed.Stands { exchange with begun := true } →
      (source = if exchange.submitted then some placed.data else none) →
      (exchange.begun || (memory.stream && memory.version)) = true →
      Ensures (placed.cells ++ rest) (next (some placed.data)) post)
    (hfails : (exchange.begun || (memory.stream && memory.version)) = false →
      Ensures (cells ++ rest) (next none) post) :
    Ensures (cells ++ rest) (streamData userData memory >>= next) post := by
  cases h with
  | fresh =>
      unfold streamData
      rw [bind_assoc]
      refine ensures_alloc (fun hstream data => ?_) (fun hstream => ?_)
      · dsimp only
        rw [bind_assoc]
        refine ensures_alloc (fun hversion version => ?_) (fun hversion => ?_)
        · dsimp only
          rw [bind_assoc]
          refine Ensures.perm (ensures_write ?_) (List.Perm.swap _ _ _)
          rw [pure_bind]
          exact hplaced (.new data version) ⟨rfl, rfl, rfl, rfl, rfl⟩ rfl
            (by simp [hstream, hversion])
        · dsimp only
          rw [bind_assoc]
          refine ensures_free ?_
          rw [pure_bind]
          exact hfails (by simp [Exchange.fresh, hversion])
      · dsimp only
        rw [pure_bind]
        exact hfails (by simp [Exchange.fresh, hstream])
  | placed placed _ source hstands hsource =>
      rw [streamData, pure_bind]
      have hbegun := hstands.1
      have hsame : { exchange with begun := true } = exchange := by rw [← hbegun]
      exact hplaced placed (hsame ▸ hstands) hsource (by simp [hbegun])

/-- `on_header_callback` does to the blocks of a stream what the field does to its exchange. -/
theorem on_header_ensures {cells : List (Nat × Cell)}
    (h : Represents userData source exchange cells) (name value : Bytes) (memory : HeaderMemory) :
    Ensures (cells ++ rest) (onHeader userData name value memory) fun answer left =>
      answer.1 = (exchange.header name value memory).1 ∧
        ∃ moved, left.Perm (moved ++ rest) ∧
          Represents answer.2 source (exchange.header name value memory).2 moved := by
  unfold onHeader Exchange.header
  refine stream_data_ensures h (fun placed hstands hsource hmemory => ?_) fun hmemory => ?_
  · rw [if_pos hmemory]
    dsimp only
    split
    · next field _ =>
        refine Ensures.bind (store_field_ensures hstands field value memory.text) ?_
        rintro code left ⟨rfl, moved, hdata, hmoved, hperm⟩
        refine ensures_pure ⟨?_, moved.cells, hperm, ?_⟩
        · cases memory.text <;> rfl
        · rw [← hdata] at hsource ⊢
          cases htext : memory.text <;> rw [htext] at hmoved <;>
            exact .placed moved _ source hmoved (by cases field <;> exact hsource)
    · exact ensures_pure ⟨rfl, placed.cells, List.Perm.refl _,
        .placed placed _ source hstands hsource⟩
  · rw [if_neg (by simp [hmemory])]
    exact ensures_pure ⟨rfl, cells, List.Perm.refl _, h⟩

/-- The response is made in its record, and its headers are returned. -/
theorem respond_ensures (hstands : placed.Stands exchange) {before : Http2Response}
    (complete : Http2Response → Http2Response) :
    Ensures ((p, .response before) :: (placed.data, .data placed.record) ::
        (placed.texts ++ rest)) (respond complete placed.data placed.record p)
      fun answer left =>
        answer = some (complete before).headers ∧
          ∃ moved : Placed, moved.data = placed.data ∧ left.Perm (moved.cells ++ rest) ∧
            moved.Stands { exchange with response := some (complete before), sent := 0 } := by
  obtain ⟨hbegun, hmethod, hpath, -, -⟩ := hstands
  refine Ensures.perm (ensures_write ?_) (List.Perm.swap _ _ _)
  refine Ensures.perm (ensures_read_response (ensures_write (ensures_pure ?_)))
    (List.Perm.swap _ _ _)
  refine ⟨rfl, { placed with response := some (p, complete before), sent := 0 }, rfl, ?_,
    hbegun, hmethod, hpath, rfl, rfl⟩
  exact (cells_perm_response
    { placed with response := some (p, complete before), sent := 0 } rest).symm

/-- The strings of the request can be read. -/
theorem read_request_ensures {α : Type} {post : α → List (Nat × Cell) → Prop}
    {next : Option Bytes → Program Cell α}
    (h : Ensures (placed.cells ++ rest) (next (placed.path.map Prod.snd)) post) :
    Ensures (placed.cells ++ rest)
      (do
        let _ ← readText placed.record.method
        let path ← readText placed.record.path
        let _ ← readText placed.record.version
        next path) post := by
  have hversion : (placed.cells ++ rest).Perm
      (cellsOf (some (placed.version, ascii "HTTP/2")) .text ++
        ((placed.data, .data placed.record) :: (cellsOf placed.method .text ++
          (cellsOf placed.path .text ++ (cellsOf placed.response .response ++ rest))))) := by
    refine List.perm_iff_count.mpr fun cell => ?_
    simp only [Placed.cells, Placed.parts, List.count_append, List.count_cons]
    omega
  refine ensures_read_text_of (cells_perm_field placed .method rest) ?_
  refine ensures_read_text_of (cells_perm_field placed .path rest) ?_
  exact ensures_read_text_of hversion h

/-- `on_frame_recv_callback` does to the blocks of a stream what the request does to its
exchange. -/
theorem on_request_ensures {cells : List (Nat × Cell)}
    (h : Represents userData source exchange cells) (route : RouteResponse)
    (allocated submitted : Bool) :
    Ensures (cells ++ rest) (onRequest route userData allocated) fun answer left =>
      answer = (exchange.request route allocated submitted).1 ∧
        ∃ moved, left.Perm (moved ++ rest) ∧
          Represents userData (if answer.isSome && submitted then userData else source)
            (exchange.request route allocated submitted).2 moved := by
  cases h with
  | fresh => exact ensures_pure ⟨rfl, [], List.Perm.refl _, .fresh⟩
  | placed placed _ source hstands hsource =>
      obtain ⟨hbegun, hmethod, hpath, hresponse, hsent⟩ := hstands
      have hstands : placed.Stands exchange := ⟨hbegun, hmethod, hpath, hresponse, hsent⟩
      refine ensures_read_data (read_request_ensures ?_)
      rw [← hpath]
      have hperm := cells_perm_response placed rest
      have hresp : placed.record.resp = placed.response.map Prod.fst := rfl
      -- either way there is a record for the response, with something in it
      have hrespond {p : Nat} {before : Http2Response}
          (hbefore : exchange.request route allocated submitted =
            (some (submittedResponse (completeResponse (route exchange.path before))).headers,
              { exchange with
                response := some (submittedResponse (completeResponse (route exchange.path before)))
                sent := 0, submitted := exchange.submitted || submitted })) :
          Ensures ((p, .response before) :: (placed.data, .data placed.record) ::
              (placed.texts ++ rest))
            (respond (fun before => submittedResponse (completeResponse
              (route exchange.path before))) placed.data placed.record p) fun answer left =>
            answer = (exchange.request route allocated submitted).1 ∧
              ∃ moved, left.Perm (moved ++ rest) ∧
                Represents (some placed.data)
                  (if answer.isSome && submitted then some placed.data else source)
                  (exchange.request route allocated submitted).2 moved := by
        refine (respond_ensures hstands _).mono ?_
        rintro answer left ⟨rfl, moved, hdata, hleft, hmoved⟩
        rw [hbefore]
        refine ⟨rfl, moved.cells, hleft, ?_⟩
        rw [← hdata] at hsource ⊢
        refine .placed moved _ _ hmoved ?_
        rw [hsource]
        cases submitted <;> cases exchange.submitted <;> rfl
      cases hplaced : placed.response with
      | some entry =>
          obtain ⟨p, before⟩ := entry
          rw [hplaced] at hperm hresp hresponse
          rw [hresp]
          simp only [responseRecord, Option.map_some]
          rw [pure_bind]
          refine (hrespond ?_).perm hperm
          simp [Exchange.request, hbegun, hresponse]
      | none =>
          rw [hplaced] at hperm hresp hresponse
          rw [hresp]
          simp only [responseRecord, Option.map_none]
          refine ensures_alloc (fun hallocated p => ?_) (fun hallocated => ?_)
          · refine (hrespond ?_).perm (hperm.cons _)
            simp [Exchange.request, hbegun, hresponse, hallocated]
          · have hrequest : exchange.request route allocated submitted =
                (none, exchange) := by
              simp [Exchange.request, hresponse, hallocated]
            rw [hrequest]
            exact ensures_pure ⟨rfl, placed.cells, List.Perm.refl _,
              .placed placed _ source hstands hsource⟩

/-- `on_stream_close_callback` frees the blocks of the stream and no other. -/
theorem on_stream_close_ensures {cells : List (Nat × Cell)}
    (h : Represents userData source exchange cells) :
    Ensures (cells ++ rest) (onStreamClose userData) fun _ left => left = rest := by
  cases h with
  | fresh => exact ensures_pure rfl
  | placed placed _ source hstands hsource =>
      have hperm : (placed.cells ++ rest).Perm (cellsOf placed.method .text ++
          (cellsOf placed.path .text ++
            (cellsOf (some (placed.version, ascii "HTTP/2")) .text ++
              (cellsOf placed.response .response ++
                (placed.data, .data placed.record) :: rest)))) := by
        refine List.perm_iff_count.mpr fun cell => ?_
        simp only [Placed.cells, Placed.parts, List.count_append, List.count_cons]
        omega
      refine ensures_read_data ?_
      refine Ensures.perm ?_ hperm
      refine ensures_free_part (ensures_free_part ?_)
      refine ensures_free_part (ensures_free_part ?_)
      rw [← bind_pure (free (some placed.data))]
      exact ensures_free (ensures_pure rfl)

/-- `http2_body_read_callback` reads from the response of the stream that it was submitted for. -/
theorem on_body_read_ensures {cells : List (Nat × Cell)}
    (h : Represents userData source exchange cells) (length : UInt64) :
    Ensures (cells ++ rest) (onBodyRead source length) fun piece left =>
      piece = (exchange.read length).1 ∧
        ∃ moved, left.Perm (moved ++ rest) ∧
          Represents userData source (exchange.read length).2 moved := by
  cases h with
  | fresh => exact ensures_pure ⟨rfl, [], List.Perm.refl _, .fresh⟩
  | placed placed _ source hstands hsource =>
      have hsame : Represents (some placed.data) source exchange placed.cells :=
        .placed placed exchange source hstands hsource
      obtain ⟨hbegun, hmethod, hpath, hresponse, hsent⟩ := hstands
      cases hsubmitted : exchange.submitted with
      | false =>
          obtain rfl : source = none := by simpa [hsubmitted] using hsource
          have hread : exchange.read length = (⟨[], true⟩, exchange) := by
            unfold Exchange.read
            split <;> simp [hsubmitted]
          rw [hread]
          exact ensures_pure ⟨rfl, placed.cells, List.Perm.refl _, hsame⟩
      | true =>
          obtain rfl : source = some placed.data := by simpa [hsubmitted] using hsource
          obtain ⟨data, version, method, path, response, sent⟩ := placed
          refine ensures_read_data ?_
          cases response with
          | none =>
              have hread : exchange.read length = (⟨[], true⟩, exchange) := by
                simp only [Exchange.read, hresponse, Option.map_none]
              rw [hread]
              exact ensures_pure ⟨rfl, _, List.Perm.refl _, hsame⟩
          | some entry =>
              obtain ⟨p, resp⟩ := entry
              have hread : exchange.read length = (pieceAt resp sent length,
                  { exchange with sent := sentAfter resp sent length }) := by
                simp only [Exchange.read, hresponse, Option.map_some, hsubmitted, if_true, hsent]
              let moved : Placed :=
                ⟨data, version, method, path, some (p, resp), sentAfter resp sent length⟩
              have hmoved : Represents (some data) (some data)
                  { exchange with sent := sentAfter resp sent length } moved.cells :=
                .placed moved _ _ ⟨hbegun, hmethod, hpath, hresponse, rfl⟩
                  (by simp [hsubmitted, moved])
              rw [hread]
              refine Ensures.perm (ensures_read_response ?_) (cells_perm_response _ rest)
              refine Ensures.perm (ensures_write (ensures_pure ?_)) (List.Perm.swap _ _ _)
              exact ⟨rfl, moved.cells,
                (List.Perm.swap _ _ _).trans (cells_perm_response moved rest).symm, hmoved⟩

end Callbacks

end Emme.Server

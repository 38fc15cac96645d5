import Emme.Server.StreamData
import Mathlib.Logic.Function.Basic

/-!
# The streams of an HTTP/2 connection

`nghttp2` keeps two pointers for each stream and calls the server back for them in any order, on one
heap. Each callback does to a stream's blocks what it does to its exchange (`session_step`). Hence
every live block belongs to an open stream (`blocks_belong_to_open_streams`), and a stream gets the
response to its own request (`stream_gets_its_response`).
-/

namespace Emme.Server

open Blocks CString Cursor Execution Emme.Http2 Emme.Router

/-! ## The connection -/

/-- A stream as the library has it. -/
structure LibStream where
  id : Nat
  userData : Option Nat
  source : Option Nat
  deriving DecidableEq, Repr

/-- What happens on a stream. With a request come the routing of that moment, whether there is
memory for the response, and whether the library takes it. -/
inductive StreamEvent where
  | begin
  | header (name value : Bytes) (memory : HeaderMemory)
  | request (route : RouteResponse) (allocated submitted : Bool)
  | read (length : UInt64)
  | close

/-- What the library learns from it. -/
inductive StreamAnswer where
  | done
  | code (code : Int)
  | submitted (headers : Option (List Header))
  | piece (piece : Piece UInt8)
  deriving DecidableEq

/-- The callback for an event on a stream, with what the library keeps of the stream. -/
def LibStream.call (stream : LibStream) (event : StreamEvent) :
    Program Cell (StreamAnswer × Option LibStream) :=
  match event with
  | .begin => pure (.done, some stream)
  | .header name value memory => do
      let answer ← onHeader stream.userData name value memory
      pure (.code answer.1, some { stream with userData := answer.2 })
  | .request route allocated submitted => do
      let fields ← onRequest route stream.userData allocated
      pure (.submitted fields, some { stream with
        source := if fields.isSome && submitted then stream.userData else stream.source })
  | .read length => do
      let piece ← onBodyRead stream.source length
      pure (.piece piece, some stream)
  | .close => do
      onStreamClose stream.userData
      pure (.done, none)

/-- `nghttp2_session`, with the heap. -/
structure StreamSession where
  streams : List LibStream
  heap : Heap Cell

/-- A session without streams. -/
def StreamSession.empty : StreamSession := ⟨[], .empty⟩

/-- The stream with a number. -/
def findStream (streams : List LibStream) (id : Nat) : Option LibStream :=
  streams.find? fun stream => stream.id = id

/-- An event on a stream; `none` is a fault. The library does not call back for a stream that it
does not have. -/
def StreamSession.step (session : StreamSession) (call : Nat × StreamEvent) :
    Option (StreamAnswer × StreamSession) :=
  match findStream session.streams call.1 with
  | some stream => do
      let outcome ← stream.call call.2 session.heap
      pure (outcome.1.1, ⟨outcome.1.2.toList ++ session.streams.filter (·.id ≠ call.1), outcome.2⟩)
  | none =>
      match call.2 with
      | .begin => some (.done, { session with streams := ⟨call.1, none, none⟩ :: session.streams })
      | _ => some (.done, session)

/-- The events of a connection, with all the answers. -/
def StreamSession.serve :
    StreamSession → List (Nat × StreamEvent) → Option (List StreamAnswer × StreamSession)
  | session, [] => some ([], session)
  | session, call :: calls => do
      let outcome ← session.step call
      let others ← StreamSession.serve outcome.2 calls
      pure (outcome.1 :: others.1, others.2)

/-- The blocks that a stream leads to: its `StreamData` and what this points to. -/
def LibStream.reach (heap : Heap Cell) (stream : LibStream) : List Nat :=
  match stream.userData with
  | none => []
  | some data =>
      data :: match heap.find? data with
        | some (.data record) =>
            record.method.toList ++ (record.path.toList ++ (record.version.toList ++
              record.resp.toList))
        | _ => []

/-! ## The exchanges -/

/-- An event on one exchange; `none` is a stream that is not there. -/
def exchangeCall (exchange : Option Exchange) (event : StreamEvent) :
    StreamAnswer × Option Exchange :=
  match exchange, event with
  | none, .begin => (.done, some .fresh)
  | none, _ => (.done, none)
  | some exchange, .begin => (.done, some exchange)
  | some exchange, .header name value memory =>
      (.code (exchange.header name value memory).1, some (exchange.header name value memory).2)
  | some exchange, .request route allocated submitted =>
      (.submitted (exchange.request route allocated submitted).1,
        some (exchange.request route allocated submitted).2)
  | some exchange, .read length =>
      (.piece (exchange.read length).1, some (exchange.read length).2)
  | some _, .close => (.done, none)

/-- The exchanges of a connection. -/
abbrev Exchanges := Nat → Option Exchange

/-- An event on the exchange of its stream. -/
def Exchanges.step (state : Exchanges) (call : Nat × StreamEvent) : StreamAnswer × Exchanges :=
  ((exchangeCall (state call.1) call.2).1,
    Function.update state call.1 (exchangeCall (state call.1) call.2).2)

/-- No stream is there. -/
def Exchanges.none : Exchanges := fun _ => Option.none

/-! ## The blocks of all streams -/

/-- The blocks are those of the streams, which stand for the exchanges. -/
inductive Layout : List LibStream → Exchanges → List (Nat × Cell) → Prop
  | nil : Layout [] .none []
  | cons {stream : LibStream} {exchange : Exchange} {own : List (Nat × Cell)}
      {streams : List LibStream} {state : Exchanges} {cells : List (Nat × Cell)}
      (hown : Represents stream.userData stream.source exchange own)
      (hnew : state stream.id = Option.none) (hrest : Layout streams state cells) :
      Layout (stream :: streams) (Function.update state stream.id (some exchange)) (own ++ cells)

variable {id : Nat} {stream : LibStream} {exchange : Exchange} {state : Exchanges}
  {path : Option Bytes}

section Layout

variable {streams : List LibStream} {state : Exchanges} {cells : List (Nat × Cell)}

/-- The streams are those that have an exchange. -/
theorem Layout.mem_iff (h : Layout streams state cells) (id : Nat) :
    id ∈ streams.map LibStream.id ↔ (state id).isSome := by
  induction h with
  | nil => simp [Exchanges.none]
  | @cons stream exchange _ streams state _ _ _ _ ih =>
      by_cases hid : id = stream.id
      · simp [hid]
      · rw [List.map_cons, List.mem_cons, ih, Function.update_of_ne hid]
        simp [hid]

/-- No two streams have the same number. -/
theorem Layout.nodup (h : Layout streams state cells) : (streams.map LibStream.id).Nodup := by
  induction h with
  | nil => exact List.nodup_nil
  | cons _ hnew hrest ih =>
      refine List.nodup_cons.mpr ⟨fun hmem => ?_, ih⟩
      rw [hrest.mem_iff, hnew] at hmem
      exact absurd hmem Bool.false_ne_true

/-- A stream is not found exactly if none has the number. -/
theorem find_stream_eq_none : findStream streams id = none ↔ id ∉ streams.map LibStream.id := by
  rw [findStream, List.find?_eq_none, List.mem_map]
  simp

/-- Taking out a stream that is not there changes nothing. -/
theorem filter_absent (h : id ∉ streams.map LibStream.id) : streams.filter (·.id ≠ id) = streams :=
  List.filter_eq_self.mpr fun stream hstream => decide_eq_true fun hid =>
    h (List.mem_map.mpr ⟨stream, hstream, hid⟩)

/-- The blocks of one stream among those of all. -/
theorem Layout.pick (h : Layout streams state cells) (hfind : findStream streams id = some stream) :
    ∃ exchange own rest, state id = some exchange ∧ stream.id = id ∧
      Represents stream.userData stream.source exchange own ∧ cells.Perm (own ++ rest) ∧
      Layout (streams.filter (·.id ≠ id)) (Function.update state id none) rest := by
  induction h with
  | nil => exact absurd hfind (by simp [findStream])
  | @cons first exchange own streams state cells hown hnew hrest ih =>
      by_cases hid : first.id = id
      · obtain rfl : first = stream := by simpa [findStream, hid] using hfind
        subst hid
        refine ⟨exchange, own, cells, Function.update_self .., rfl, hown, List.Perm.refl _, ?_⟩
        have habsent : first.id ∉ streams.map LibStream.id := by
          rw [hrest.mem_iff, hnew]
          exact Bool.false_ne_true
        have hstate : Function.update (Function.update state first.id (some exchange)) first.id
            none = state := by
          rw [Function.update_idem, ← hnew, Function.update_eq_self]
        rw [List.filter_cons_of_neg (by simp), filter_absent habsent, hstate]
        exact hrest
      · obtain ⟨found, mine, rest, hstate, hstream, hmine, hperm, hlayout⟩ :=
          ih (by simpa [findStream, hid] using hfind)
        refine ⟨found, mine, own ++ rest, ?_, hstream, hmine, ?_, ?_⟩
        · rw [Function.update_of_ne (Ne.symm hid), hstate]
        · refine (hperm.append_left own).trans ?_
          rw [← List.append_assoc, ← List.append_assoc]
          exact List.perm_append_comm.append_right rest
        · rw [List.filter_cons_of_pos (by simp [hid]), Function.update_comm hid]
          exact .cons hown (by rw [Function.update_of_ne hid, hnew]) hlayout

end Layout

/-! ## One event -/

/-- What the library has of a stream after an event, and the blocks that go with it. -/
def Kept (id : Nat) (stream : Option LibStream) (exchange : Option Exchange)
    (cells : List (Nat × Cell)) : Prop :=
  match stream, exchange with
  | some stream, some exchange =>
      stream.id = id ∧ Represents stream.userData stream.source exchange cells
  | none, none => cells = []
  | _, _ => False

/-- The callback for an event does to the blocks of its stream what the event does to the exchange,
and leaves all others. -/
theorem call_ensures {cells rest : List (Nat × Cell)}
    (h : Represents stream.userData stream.source exchange cells) (event : StreamEvent) :
    Ensures (cells ++ rest) (stream.call event) fun outcome left =>
      outcome.1 = (exchangeCall (some exchange) event).1 ∧
        ∃ moved, left.Perm (moved ++ rest) ∧
          Kept stream.id outcome.2 (exchangeCall (some exchange) event).2 moved := by
  cases event with
  | begin => exact ensures_pure ⟨rfl, cells, List.Perm.refl _, rfl, h⟩
  | header name value memory =>
      refine Ensures.bind (on_header_ensures h name value memory) ?_
      rintro answer left ⟨hcode, moved, hperm, hmoved⟩
      exact ensures_pure ⟨congrArg StreamAnswer.code hcode, moved, hperm, rfl, hmoved⟩
  | request route allocated submitted =>
      refine Ensures.bind (on_request_ensures h route allocated submitted) ?_
      rintro fields left ⟨rfl, moved, hperm, hmoved⟩
      exact ensures_pure ⟨rfl, moved, hperm, rfl, hmoved⟩
  | read length =>
      refine Ensures.bind (on_body_read_ensures h length) ?_
      rintro piece left ⟨rfl, moved, hperm, hmoved⟩
      exact ensures_pure ⟨rfl, moved, hperm, rfl, hmoved⟩
  | close =>
      refine Ensures.bind (on_stream_close_ensures h) ?_
      rintro _ left rfl
      exact ensures_pure ⟨rfl, [], List.Perm.refl _, rfl⟩

/-- The session stands for the exchanges. -/
def StreamSession.Stands (session : StreamSession) (state : Exchanges) : Prop :=
  ∃ cells, Layout session.streams state cells ∧ session.heap.Holds cells

/-- A stream after an event joins the others again. -/
theorem Layout.join {stream : Option LibStream} {exchange : Option Exchange}
    {streams : List LibStream} {own rest : List (Nat × Cell)}
    (hkept : Kept id stream exchange own)
    (h : Layout streams (Function.update state id none) rest) :
    Layout (stream.toList ++ streams) (Function.update state id exchange) (own ++ rest) := by
  cases stream with
  | none =>
      cases exchange with
      | none =>
          obtain rfl : own = [] := hkept
          exact h
      | some exchange => exact False.elim hkept
  | some stream =>
      cases exchange with
      | none => exact False.elim hkept
      | some exchange =>
          obtain ⟨rfl, hown⟩ := hkept
          have hjoined := Layout.cons hown (Function.update_self ..) h
          rw [Function.update_idem] at hjoined
          exact hjoined

/-- Every event goes without a fault and does what it does to the exchanges. -/
theorem session_step {session : StreamSession} (h : session.Stands state)
    (call : Nat × StreamEvent) :
    ∃ next, session.step call = some ((state.step call).1, next) ∧
      next.Stands (state.step call).2 := by
  obtain ⟨cells, hlayout, hholds⟩ := h
  cases hfind : findStream session.streams call.1 with
  | some stream =>
      obtain ⟨exchange, own, rest, hstate, hid, hown, hperm, hrest⟩ := hlayout.pick hfind
      obtain ⟨outcome, heap, left, hcall, hleft, hanswer, moved, hmoved, hkept⟩ :=
        call_ensures hown call.2 session.heap (List.Perm.trans hholds hperm)
      rw [hid] at hkept
      refine ⟨⟨outcome.2.toList ++ session.streams.filter (·.id ≠ call.1), heap⟩, ?_,
        moved ++ rest, ?_, List.Perm.trans hleft hmoved⟩
      · simp only [StreamSession.step, hfind, hcall, Exchanges.step, hstate, ← hanswer]
        rfl
      · rw [Exchanges.step, hstate]
        exact hrest.join hkept
  | none =>
      have hstate : state call.1 = none := by
        rw [find_stream_eq_none, hlayout.mem_iff, Option.not_isSome_iff_eq_none] at hfind
        exact hfind
      have hsame : Function.update state call.1 none = state := by
        rw [← hstate, Function.update_eq_self]
      obtain ⟨id, event⟩ := call
      simp only [StreamSession.step, hfind, Exchanges.step, hstate]
      cases event with
      | begin =>
          refine ⟨⟨⟨id, none, none⟩ :: session.streams, session.heap⟩, rfl, cells, ?_, hholds⟩
          exact @Layout.cons ⟨id, none, none⟩ _ [] _ _ _ .fresh hstate hlayout
      | header | request | read | close =>
          refine ⟨session, rfl, cells, ?_, hholds⟩
          simp only [exchangeCall, hsame]
          exact hlayout

/-! ## Whole connections -/

/-- All callbacks of a connection together do what the events do to the exchanges. -/
theorem serve_stands {session : StreamSession} (h : session.Stands state)
    (calls : List (Nat × StreamEvent)) :
    ∃ final, session.serve calls =
        some ((trace Exchanges.step state calls).map Prod.snd, final) ∧
      final.Stands (after Exchanges.step state calls) := by
  induction calls generalizing session state with
  | nil => exact ⟨session, rfl, h⟩
  | cons call calls ih =>
      obtain ⟨next, hstep, hnext⟩ := session_step h call
      obtain ⟨final, hserve, hfinal⟩ := ih hnext
      refine ⟨final, ?_, hfinal⟩
      simp only [StreamSession.serve, hstep, Option.bind_eq_bind, Option.bind_some, hserve]
      rfl

/-- A session without streams stands for no exchange. -/
theorem empty_stands : StreamSession.empty.Stands .none := ⟨[], .nil, List.Perm.refl _⟩

/-- The numbers of an optional part's blocks. -/
theorem cells_of_fst {α : Type} (entry : Option (Nat × α)) (cell : α → Cell) :
    (cellsOf entry cell).map Prod.fst = (entry.map Prod.fst).toList := by
  cases entry <;> rfl

/-- The blocks of a stream are those it leads to. -/
theorem Represents.reach {own : List (Nat × Cell)}
    (h : Represents stream.userData stream.source exchange own) {heap : Heap Cell}
    (hown : ∀ cell ∈ own, heap.find? cell.1 = some cell.2) :
    stream.reach heap = own.map Prod.fst := by
  obtain ⟨id, userData, source⟩ := stream
  cases h with
  | fresh => rfl
  | placed placed _ source hstands hsource =>
      have hdata : heap.find? placed.data = some (.data placed.record) :=
        hown (placed.data, .data placed.record) List.mem_cons_self
      simp only [LibStream.reach, hdata, Placed.cells, Placed.parts, List.map_cons,
        List.map_append, cells_of_fst]
      rfl

/-- The blocks that the streams lead to are all there are. -/
theorem Layout.reach {streams : List LibStream} {cells : List (Nat × Cell)}
    (h : Layout streams state cells) {heap : Heap Cell}
    (hcells : ∀ cell ∈ cells, heap.find? cell.1 = some cell.2) :
    streams.flatMap (LibStream.reach heap) = cells.map Prod.fst := by
  induction h with
  | nil => rfl
  | cons hown _ _ ih =>
      rw [List.flatMap_cons, List.map_append,
        hown.reach fun cell hcell => hcells cell (List.mem_append_left _ hcell),
        ih fun cell hcell => hcells cell (List.mem_append_right _ hcell)]

/-- Whatever happens on the streams of a connection, with whatever allocations failing, no callback
touches a block that is not live, and the answers are those of the exchanges. The live blocks are
those that the open streams lead to, each of them once. -/
theorem blocks_belong_to_open_streams (calls : List (Nat × StreamEvent)) :
    ∃ final, StreamSession.empty.serve calls =
        some ((trace Exchanges.step .none calls).map Prod.snd, final) ∧
      (final.streams.map LibStream.id).Nodup ∧
      (∀ id, id ∈ final.streams.map LibStream.id ↔
        (after Exchanges.step .none calls id).isSome) ∧
      (final.heap.blocks.map Prod.fst).Perm (final.streams.flatMap (LibStream.reach final.heap)) ∧
      (final.streams = [] → final.heap.blocks = []) := by
  obtain ⟨final, hserve, cells, hlayout, hholds⟩ := serve_stands empty_stands calls
  have hreach : (final.heap.blocks.map Prod.fst).Perm
      (final.streams.flatMap (LibStream.reach final.heap)) := by
    rw [hlayout.reach fun cell hcell => hholds.find_of_mem hcell]
    exact List.Perm.map Prod.fst hholds
  refine ⟨final, hserve, hlayout.nodup, hlayout.mem_iff, hreach, fun hclosed => ?_⟩
  rw [hclosed] at hreach
  exact List.map_eq_nil_iff.mp hreach.eq_nil

/-! ## One stream among the others -/

/-- The part of a trace that is about one stream. -/
def answersOn (id : Nat) (calls : List (Nat × StreamEvent)) (answers : List StreamAnswer) :
    List StreamAnswer :=
  ((calls.zip answers).filter (·.1.1 = id)).map Prod.snd

/-- The exchange of a stream depends on what happens on it and on nothing else. -/
theorem answers_on_eq (id : Nat) (state : Exchanges) (calls : List (Nat × StreamEvent)) :
    answersOn id calls ((trace Exchanges.step state calls).map Prod.snd) =
      (trace exchangeCall (state id) ((calls.filter (·.1 = id)).map Prod.snd)).map Prod.snd := by
  induction calls generalizing state with
  | nil => rfl
  | cons call calls ih =>
      have hrest := ih (state.step call).2
      simp only [answersOn] at hrest
      by_cases hid : call.1 = id
      · subst hid
        simp only [answersOn, trace_cons, List.map_cons, List.zip_cons_cons,
          List.filter_cons, decide_true, if_true, hrest]
        simp [Exchanges.step]
      · have hother : (state.step call).2 id = state id := Function.update_of_ne (Ne.symm hid) ..
        simp only [answersOn, trace_cons, List.map_cons, List.zip_cons_cons, List.filter_cons,
          hid, decide_false, Bool.false_eq_true, if_false, hrest, hother]

/-- The path that a list of fields leaves: the last one it has. -/
def pathOf (path : Option Bytes) (fields : List (Bytes × Bytes)) : Option Bytes :=
  fields.foldl (fun path field =>
    if requestField field.1 = some .path then some (cstr field.2 0) else path) path

/-- The fields of a request, for all of which there is memory. -/
def headerEvents (fields : List (Bytes × Bytes)) : List StreamEvent :=
  fields.map fun field => .header field.1 field.2 {}

/-- The request of an exchange has this path, and there is no response yet. -/
def Exchange.Asks (exchange : Exchange) (path : Option Bytes) : Prop :=
  exchange.path = path ∧ exchange.response = none

/-- A field that arrives before the request is complete leaves it without a response. -/
theorem header_asks (h : exchange.Asks path) (field : Bytes × Bytes) :
    ∃ next, exchangeCall (some exchange) (.header field.1 field.2 {}) = (.code 0, some next) ∧
      next.begun = true ∧ next.Asks (pathOf path [field]) := by
  refine ⟨(exchange.header field.1 field.2 {}).2, ?_, ?_⟩
  all_goals
    cases hfield : requestField field.1 with
    | none => simp [exchangeCall, Exchange.header, pathOf, hfield, Exchange.Asks, h.1, h.2]
    | some kind =>
        cases kind <;>
          simp [exchangeCall, Exchange.header, Exchange.set, pathOf, hfield, Exchange.Asks, h.1,
            h.2]

/-- The fields of a request, one after the other. -/
theorem headers_ask (h : exchange.Asks path) (fields : List (Bytes × Bytes)) :
    (trace exchangeCall (some exchange) (headerEvents fields)).map Prod.snd =
        fields.map (fun _ => .code 0) ∧
      ∃ next, after exchangeCall (some exchange) (headerEvents fields) = some next ∧
        next.Asks (pathOf path fields) ∧ (exchange.begun = true ∨ fields ≠ [] →
          next.begun = true) := by
  induction fields generalizing exchange path with
  | nil => exact ⟨rfl, exchange, rfl, h, fun hbegun => hbegun.resolve_right (absurd rfl)⟩
  | cons field fields ih =>
      obtain ⟨next, hcall, hbegun, hnext⟩ := header_asks h field
      obtain ⟨hanswers, final, hafter, hfinal, hstays⟩ := ih hnext
      refine ⟨?_, final, ?_, hfinal, fun _ => hstays (.inl hbegun)⟩
      · simp only [headerEvents, List.map_cons, trace_cons, hcall] at hanswers ⊢
        rw [hanswers]
      · simp only [headerEvents, List.map_cons, after_cons, hcall] at hafter ⊢
        exact hafter

/-- The response to a request that has been routed. -/
def responseTo (route : RouteResponse) (path : Option Bytes) : Http2Response :=
  submittedResponse (completeResponse (route path .zero))

/-- A complete request gets the response to its path, if memory and library allow. -/
theorem request_submits (h : exchange.Asks path) (hbegun : exchange.begun = true)
    (route : RouteResponse) :
    exchangeCall (some exchange) (.request route true true) =
      (.submitted (some (responseTo route path).headers), some { exchange with
        response := some (responseTo route path), sent := 0, submitted := true }) := by
  simp [exchangeCall, Exchange.request, hbegun, h.1, h.2, responseTo]

/-- The library reads from the response that it has. -/
theorem reads_from_response (resp : Http2Response) (exchange : Exchange) (lengths : List UInt64) :
    (trace exchangeCall (some { exchange with
        response := some resp, sent := 0, submitted := true }) (lengths.map .read)).map Prod.snd =
      ((trace http2BodyReadCallback (some ⟨some (bodyOf resp), 0⟩) lengths).map Prod.snd).map
        .piece := by
  generalize (0 : UInt64) = sent
  induction lengths generalizing sent with
  | nil => rfl
  | cons length lengths ih =>
      simp only [List.map_cons, trace_cons]
      exact congrArg₂ _ rfl (ih (sentAfter resp sent length))

/-- What a stream is answered whose request is routed and whose response is then read, whatever
happens on the other streams. -/
theorem request_answered {fields : List (Bytes × Bytes)} (hfields : fields ≠ [])
    {route : RouteResponse} {lengths : List UInt64} {calls : List (Nat × StreamEvent)}
    (hcalls : (calls.filter (·.1 = id)).map Prod.snd =
      .begin :: (headerEvents fields ++ .request route true true :: lengths.map .read)) :
    ∃ answers final, StreamSession.empty.serve calls = some (answers, final) ∧
      answersOn id calls answers =
        .done :: (fields.map (fun _ => .code 0) ++
          .submitted (some (responseTo route (pathOf none fields)).headers) ::
            ((trace http2BodyReadCallback
              (some ⟨some (bodyOf (responseTo route (pathOf none fields))), 0⟩) lengths).map
                Prod.snd).map .piece) := by
  obtain ⟨final, hserve, -⟩ := serve_stands empty_stands calls
  refine ⟨_, final, hserve, ?_⟩
  rw [answers_on_eq, hcalls]
  have hfresh : Exchange.fresh.Asks none := ⟨rfl, rfl⟩
  obtain ⟨hanswers, next, hafter, hasks, hbegun⟩ := headers_ask hfresh fields
  have hrequest := request_submits hasks (hbegun (.inr hfields)) route
  have hbegin : exchangeCall (Exchanges.none id) .begin = (.done, some .fresh) := rfl
  rw [trace_cons, hbegin, trace_append, hafter, trace_cons, hrequest]
  simp only [List.map_cons, List.map_append, hanswers, reads_from_response]

/-- **A stream gets its response.** Among any other events on any other streams, a request whose
fields have all been stored is answered with what the router makes of its last path, and reading
with any positive lengths hands out the body of that response exactly. -/
theorem stream_gets_its_response (id : Nat) {fields : List (Bytes × Bytes)} (hfields : fields ≠ [])
    (route : RouteResponse) {lengths : Nat → UInt64} (hpos : ∀ i, 0 < lengths i) :
    ∃ reads pieces,
      ReadsOut ((responseTo route (pathOf none fields)).body.take bodySize)
        ((List.range reads).map fun i => (lengths i).toNat) pieces ∧
      ∀ calls : List (Nat × StreamEvent),
        (calls.filter (·.1 = id)).map Prod.snd =
          .begin :: (headerEvents fields ++
            .request route true true :: ((List.range reads).map lengths).map .read) →
        ∃ answers final, StreamSession.empty.serve calls = some (answers, final) ∧
          answersOn id calls answers =
            .done :: (fields.map (fun _ => .code 0) ++
              .submitted (some (responseTo route (pathOf none fields)).headers) ::
                pieces.map .piece) := by
  let resp := responseTo route (pathOf none fields)
  obtain ⟨⟨reads, hreads⟩, -⟩ := (body_read_callback_reads (bodyOf resp)).delivers_exactly hpos
  exact ⟨reads, _, hreads, fun calls hcalls => request_answered hfields hcalls⟩

/-- A response of two bytes, read byte by byte. -/
theorem stream_gets_its_response_of_two_bytes :
    ∃ reads pieces, ReadsOut (ascii "/a") ((List.range reads).map fun _ => 1) pieces ∧
      ∀ calls : List (Nat × StreamEvent),
        (calls.filter (·.1 = 1)).map Prod.snd =
          .begin :: (headerEvents [(ascii ":path", ascii "/a")] ++
            .request (fun path resp => ({ resp with body := path.getD [] }, true)) true true ::
              ((List.range reads).map fun _ => 1).map .read) →
        ∃ answers final, StreamSession.empty.serve calls = some (answers, final) ∧
          answersOn 1 calls answers =
            .done :: .code 0 :: .submitted (some
              [⟨ascii ":status", .live (ascii "200")⟩,
                ⟨ascii "content-type", .live (ascii "text/plain")⟩,
                ⟨ascii "content-length", .live (ascii "2")⟩]) :: pieces.map .piece :=
  @stream_gets_its_response 1 [(ascii ":path", ascii "/a")] (List.cons_ne_nil _ _)
    (fun path resp => ({ resp with body := path.getD [] }, true)) (fun _ => 1) fun _ => by decide

end Emme.Server

import Emme.Lib.CString
import Emme.Lib.Cursor
import Mathlib.Algebra.Group.Nat.Defs

/-!
# Handing a body to the library

`nghttp2` fetches a body through a callback: `http2_body_read_callback` for responses,
`http2_client_data_read` for requests to a backend. They find the end by different tests, and both
read the body out exactly once (`body_read_exactly`).
-/

namespace Emme.Http2

open CString Cursor Execution

/-- A body with its length, a `size_t`. -/
structure Body where
  bytes : Bytes
  len : UInt64
  len_eq : len.toNat = bytes.length

/-! ## The callbacks -/

/-- `remaining < length ? remaining : length`. -/
def atMost (remaining length : UInt64) : UInt64 := if remaining < length then remaining else length

/-- The cursor behind a copy, which is made only if there is something to copy. -/
def advance (sent amount : UInt64) : UInt64 := if 0 < amount then sent + amount else sent

/-- The part of `StreamData` that the callback reads: the response, if there is one, and
`resp_sent`. -/
structure StreamData where
  resp : Option Body
  respSent : UInt64

/-- `http2_body_read_callback` for a buffer of the given length; `none` is a source without a
pointer. The piece is what is copied and whether `NGHTTP2_DATA_FLAG_EOF` is set. -/
def http2BodyReadCallback (source : Option StreamData) (length : UInt64) :
    Piece UInt8 × Option StreamData :=
  match source with
  | none => (⟨[], true⟩, none)
  | some data =>
      match data.resp with
      | none => (⟨[], true⟩, some data)
      | some resp =>
          let remaining := resp.len - data.respSent
          let toCopy := atMost remaining length
          let sent := advance data.respSent toCopy
          (⟨(resp.bytes.drop data.respSent.toNat).take toCopy.toNat, decide (resp.len ≤ sent)⟩,
            some { data with respSent := sent })

/-- The part of `http2_client_t` that the callback reads: the request's body and `body_sent`. -/
structure RequestBody where
  requestBody : Body
  bodySent : UInt64

/-- `http2_client_data_read` for a buffer of the given length. -/
def http2ClientDataRead (client : RequestBody) (length : UInt64) : Piece UInt8 × RequestBody :=
  let remaining := client.requestBody.len - client.bodySent
  let toSend := atMost remaining length
  (⟨(client.requestBody.bytes.drop client.bodySent.toNat).take toSend.toNat,
      decide (remaining ≤ length)⟩, { client with bodySent := advance client.bodySent toSend })

/-! ## Both read from a cursor -/

section Reader

variable {σ : Type}

/-- The calls up to the first that sets the flag read the body out, and at no call more has been
sent than there is. `hold` makes the callback's record from what has been sent. -/
def DeliversExactly (step : σ → UInt64 → Piece UInt8 × σ) (hold : UInt64 → σ) (body : Body)
    (lengths : Nat → UInt64) : Prop :=
  (∃ calls, ReadsOut body.bytes ((List.range calls).map fun i => (lengths i).toNat)
      ((trace step (hold 0) ((List.range calls).map lengths)).map Prod.snd)) ∧
    ∀ calls, ∃ sent, after step (hold 0) ((List.range calls).map lengths) = hold sent ∧
      sent ≤ body.len

/-- One call reads from a cursor that stays within the body. -/
def ReadsFrom (step : σ → UInt64 → Piece UInt8 × σ) (hold : UInt64 → σ) (body : Body) : Prop :=
  ∀ sent length, sent ≤ body.len → ∃ sent',
    step (hold sent) length = ((Cursor.read body.bytes sent.toNat length.toNat).1, hold sent') ∧
      sent'.toNat = (Cursor.read body.bytes sent.toNat length.toNat).2

variable {step : σ → UInt64 → Piece UInt8 × σ} {hold : UInt64 → σ} {body : Body}

/-- The reader of the library and the callback proceed together. -/
theorem ReadsFrom.simulates (h : ReadsFrom step hold body) (lengths : List UInt64) :
    (trace step (hold 0) lengths).map Prod.snd =
        (trace (Cursor.read body.bytes) 0 (lengths.map UInt64.toNat)).map Prod.snd ∧
      ∃ sent, after step (hold 0) lengths = hold sent ∧ sent ≤ body.len := by
  let related (state : σ) (cursor : Nat) : Prop :=
    ∃ sent, state = hold sent ∧ sent.toNat = cursor ∧ sent ≤ body.len
  have hstep : ∀ state cursor length, related state cursor →
      (step state length).1 = (Cursor.read body.bytes cursor length.toNat).1 ∧
        related (step state length).2 (Cursor.read body.bytes cursor length.toNat).2 := by
    rintro _ _ length ⟨sent, rfl, rfl, hsent⟩
    obtain ⟨sent', hcall, hsent'⟩ := h sent length hsent
    refine ⟨by rw [hcall], sent', by rw [hcall], hsent', UInt64.le_iff_toNat_le.mpr ?_⟩
    rw [hsent', body.len_eq]
    exact read_le (body.len_eq ▸ UInt64.le_iff_toNat_le.mp hsent) length.toNat
  have hstart : related (hold 0) 0 := ⟨0, rfl, rfl, UInt64.zero_le⟩
  obtain ⟨htrace, sent, hafter, -, hsent⟩ := trace_simulates hstep hstart lengths
  exact ⟨htrace, sent, hafter, hsent⟩

/-- A callback that reads from a cursor delivers the body exactly, if the library never asks for
zero bytes. -/
theorem ReadsFrom.delivers_exactly (h : ReadsFrom step hold body) {lengths : Nat → UInt64}
    (hpos : ∀ i, 0 < lengths i) : DeliversExactly step hold body lengths := by
  constructor
  · have hpositive : ∀ i, 0 < (lengths i).toNat := fun i => UInt64.lt_iff_toNat_lt.mp (hpos i)
    obtain ⟨calls, hreads⟩ := read_until_last (Nat.zero_le body.bytes.length) hpositive
    refine ⟨calls, ?_⟩
    rw [(h.simulates _).1, List.map_map]
    exact hreads
  · exact fun calls => (h.simulates _).2

end Reader

/-! ## The two callbacks -/

/-- The smaller of what remains and what is asked for, as a number. -/
theorem to_nat_at_most (remaining length : UInt64) :
    (atMost remaining length).toNat = min remaining.toNat length.toNat := by
  unfold atMost
  split <;> rename_i h <;> rw [UInt64.lt_iff_toNat_lt] at h <;> omega

/-- The cursor does not overflow within a body. -/
theorem to_nat_advance {sent amount : UInt64} (h : sent.toNat + amount.toNat < 2 ^ 64) :
    (advance sent amount).toNat = sent.toNat + amount.toNat := by
  unfold advance
  split
  · rw [UInt64.toNat_add, Nat.mod_eq_of_lt h]
  · rename_i hnone
    rw [UInt64.lt_iff_toNat_lt, UInt64.toNat_zero] at hnone
    omega

section Call

variable {body : Body} {sent : UInt64}

/-- What remains, without a wrap. -/
theorem to_nat_remaining (h : sent ≤ body.len) :
    (body.len - sent).toNat = body.bytes.length - sent.toNat := by
  rw [UInt64.toNat_sub_of_le _ _ h, body.len_eq]

/-- The chunk of a call is the one of the reader. -/
theorem chunk_eq_read (h : sent ≤ body.len) (length : UInt64) :
    (body.bytes.drop sent.toNat).take (atMost (body.len - sent) length).toNat =
      (Cursor.read body.bytes sent.toNat length.toNat).1.chunk := by
  rw [to_nat_at_most, to_nat_remaining h, ← List.length_drop, Nat.min_comm,
    ← List.take_eq_take_min]
  rfl

/-- The cursor behind a call is the one of the reader. -/
theorem advance_eq_read (h : sent ≤ body.len) (length : UInt64) :
    (advance sent (atMost (body.len - sent) length)).toNat =
      (Cursor.read body.bytes sent.toNat length.toNat).2 := by
  have hle := UInt64.le_iff_toNat_le.mp h
  have hsize := body.len.toNat_lt
  have hamount := to_nat_at_most (body.len - sent) length
  rw [to_nat_remaining h] at hamount
  rw [body.len_eq] at hle hsize
  rw [to_nat_advance (by omega), hamount]
  simp only [Cursor.read, List.length_take, List.length_drop]
  omega

end Call

/-- The callback of the server reads from a cursor. -/
theorem body_read_callback_reads (body : Body) :
    ReadsFrom http2BodyReadCallback (fun sent => some ⟨some body, sent⟩) body := by
  intro sent length hsent
  have hcursor := advance_eq_read hsent length
  refine ⟨advance sent (atMost (body.len - sent) length), Prod.ext ?_ rfl, hcursor⟩
  simp only [http2BodyReadCallback, chunk_eq_read hsent, UInt64.le_iff_toNat_le, hcursor,
    body.len_eq]
  rfl

/-- The callback of the client reads from a cursor. -/
theorem client_data_read_reads (body : Body) :
    ReadsFrom http2ClientDataRead (fun sent => ⟨body, sent⟩) body := by
  intro sent length hsent
  have hcursor := advance_eq_read hsent length
  refine ⟨advance sent (atMost (body.len - sent) length), Prod.ext ?_ rfl, hcursor⟩
  -- the client compares what remained before the call, not what has been sent after it
  have hend : body.bytes.length ≤ (Cursor.read body.bytes sent.toNat length.toNat).2 ↔
      (body.len - sent).toNat ≤ length.toNat := by
    rw [to_nat_remaining hsent]
    simp only [Cursor.read, List.length_take, List.length_drop]
    omega
  simp only [http2ClientDataRead, chunk_eq_read hsent, UInt64.le_iff_toNat_le, ← hend]
  rfl

/-- **Bodies are read out exactly.** For every body and all positive buffer lengths, both
callbacks hand out the body in pieces that fit their buffers, set the flag with the last byte and
not before, and never compute a remainder that wraps. -/
theorem body_read_exactly (body : Body) (lengths : Nat → UInt64) (hpos : ∀ i, 0 < lengths i) :
    DeliversExactly http2BodyReadCallback (fun sent => some ⟨some body, sent⟩) body lengths ∧
      DeliversExactly http2ClientDataRead (fun sent => ⟨body, sent⟩) body lengths :=
  ⟨(body_read_callback_reads body).delivers_exactly hpos,
    (client_data_read_reads body).delivers_exactly hpos⟩

/-- A body of five bytes. -/
def helloBody : Body := ⟨ascii "hello", 5, by decide⟩

/-- The body is fetched two bytes at a time. -/
theorem hello_read_exactly :
    DeliversExactly http2BodyReadCallback (fun sent => some ⟨some helloBody, sent⟩) helloBody
        (fun _ => 2) ∧
      DeliversExactly http2ClientDataRead (fun sent => ⟨helloBody, sent⟩) helloBody
        (fun _ => 2) :=
  body_read_exactly helloBody (fun _ => 2) fun _ => by decide

end Emme.Http2

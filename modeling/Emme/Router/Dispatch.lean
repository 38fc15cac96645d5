import Mathlib.Algebra.Order.BigOperators.Group.List
import Mathlib.Algebra.Ring.Int.Defs
import Emme.Http.Parser
import Emme.Router.StaticLookup

/-!
# Routing an HTTP/1.1 request

The HTTP/1.1 half of `route_request_tls`: health endpoint, root page, static file, reverse
proxy, in that order. The outcomes of the system calls on the way are inputs of the model; the
bytes that `proxy_request_tls` writes to the backend are its output.
-/

namespace Emme.Router

open CString FileTree Emme.Config Emme.Http

/-! ## The backend address -/

/-- A decimal digit. -/
def isDigit (b : UInt8) : Bool := 48 ≤ b && b ≤ 57

/-- The value of a string of decimal digits. -/
def decimal (digits : Bytes) : Nat :=
  digits.foldl (fun value digit => 10 * value + (digit.toNat - 48)) 0

/-- White space, a sign and digits at the start of a text: their value, and what follows. -/
def scanDecimal (text : Bytes) : Option (Int × Bytes) :=
  let text := text.dropWhile isSpace
  let (sign, text) : Int × Bytes :=
    match text with
    | 45 :: rest => (-1, rest)
    | 43 :: rest => (1, rest)
    | rest => (1, rest)
  let digits := text.takeWhile isDigit
  if digits = [] then none else some (sign * decimal digits, text.dropWhile isDigit)

/-- The nearest value of a `long`. -/
def clampLong (value : Int) : Int := max (-2 ^ 63) (min value (2 ^ 63 - 1))

/-- `strtol`: the value, kept within a `long`, and the text at `endptr`. -/
def strtol (text : Bytes) : Int × Bytes :=
  match scanDecimal text with
  | none => (0, text)
  | some (value, rest) => (clampLong value, rest)

/-- The conversion `%d` of `sscanf`, and what follows. The C library reads a `long` as `strtol` does
and stores it to an `int`, which keeps its low 32 bits. -/
def scanInt (text : Bytes) : Option (Int32 × Bytes) :=
  (scanDecimal text).map fun (value, rest) => (Int32.ofInt (clampLong value), rest)

/-- `sscanf(backend, "%63[^:]:%d", ip, &port) == 2`. -/
def scanBackend (backend : Bytes) : Option (Bytes × Int32) :=
  let ip := (backend.take 63).takeWhile (· ≠ 58)
  if ip = [] then none
  else
    match backend.drop ip.length with
    | 58 :: rest => (scanInt rest).map fun (port, _) => (ip, port)
    | _ => none

/-- One number of a dotted address: one to three digits, no leading zero, at most 255. -/
def isOctet (part : Bytes) : Bool :=
  part ≠ [] && part.all isDigit && part.length ≤ 3 && decimal part ≤ 255 &&
    (part.length = 1 || part.head? ≠ some 48)

/-- `inet_pton(AF_INET, ip, ..) > 0`. -/
def inetPtonOk (ip : Bytes) : Bool :=
  (ip.splitOn 46).length = 4 && (ip.splitOn 46).all isOctet

/-! ## The reverse proxy -/

/-- What the system calls of `proxy_request_tls` return, up to the relay. -/
structure BackendNet where
  socketOk : Bool
  connectOk : Bool
  sends : List Int

/-- The send loop of `proxy_request_tls`: the bytes that reach the backend, given what the calls
of `send` return one after another. -/
def sendLoop (data : Bytes) : List Int → Bytes
  | [] => []
  | n :: sends =>
      if data = [] then []
      else if n ≤ 0 then []
      else data.take n.toNat ++ sendLoop (data.drop n.toNat) sends

/-- The results of `send` transfer the data completely, in pieces of any positive size. -/
def SendsAll (data : Bytes) (sends : List Int) : Prop :=
  (∀ n ∈ sends, 0 < n) ∧ sends.sum = data.length

/-- Sends that all succeed write the data. -/
theorem send_loop_all {data : Bytes} {sends : List Int} (h : SendsAll data sends) :
    sendLoop data sends = data := by
  obtain ⟨hpos, hsum⟩ := h
  induction sends generalizing data with
  | nil =>
      have hlen : data.length = 0 := by simpa using hsum.symm
      rw [sendLoop, List.eq_nil_of_length_eq_zero hlen]
  | cons n sends ih =>
      have hn : 0 < n := hpos n List.mem_cons_self
      have hrest : ∀ m ∈ sends, 0 < m := fun m hm => hpos m (List.mem_cons_of_mem _ hm)
      have hnonneg : 0 ≤ sends.sum := List.sum_nonneg fun m hm => (hrest m hm).le
      rw [List.sum_cons] at hsum
      have hdata : data ≠ [] := by
        rintro rfl
        simp only [List.length_nil] at hsum
        omega
      rw [sendLoop, if_neg hdata, if_neg (Int.not_le.mpr hn), ih hrest, List.take_append_drop]
      rw [List.length_drop]
      omega

/-- The result of `proxy_request_tls`: `-1` with nothing sent, or `0` with the bytes that were
written to the backend before the relay started. -/
inductive ProxyResult where
  | declined
  | forwarded (written : Bytes)
  deriving DecidableEq, Repr

/-- The route is a reverse proxy whose path starts the request's. -/
def servesProxy (path : Bytes) (route : Route) : Bool :=
  route.technology = ascii "reverse_proxy" && route.path.isPrefixOf path

/-- `proxy_request_tls`; the loop over the routes ends at the first that matches. -/
def proxyRequestTls (routes : List Route) (path raw : Bytes) (net : BackendNet) : ProxyResult :=
  match routes.find? (servesProxy path) with
  | none => .declined
  | some route =>
      match scanBackend route.backend with
      | none => .declined
      | some (ip, _) =>
          if net.socketOk && inetPtonOk ip && net.connectOk then
            .forwarded (sendLoop raw net.sends)
          else .declined

/-! ## The dispatcher -/

/-- `serve_static_tls(..) == 0`, where `writes` says that the response head fits its buffer and
every read of the file and write to the client succeeds. -/
def serveStaticTls (view : View) (path : Bytes) (routes : List Route) (writes : Bool) : Bool :=
  match lookupStaticFile view path routes with
  | .noRoute => false
  | .error => false
  | .notFound => writes
  | .forbidden => writes
  | .ready _ _ _ => writes

/-- Which part of `route_request_tls` deals with the request. -/
inductive Answer where
  | health
  | rootPage
  | staticFile
  | proxied (written : Bytes)
  | notFound
  deriving DecidableEq, Repr

/-- The surroundings of one request: the file system, whether the static response can be
written, the backend's system calls, and how many of the client's further reads the relay takes
before it ends. -/
structure RequestIo where
  view : View
  writes : Bool
  net : BackendNet
  relayed : Nat

/-- `route_request_tls` for HTTP/1.1, where `raw` is the connection's buffer. -/
def routeRequestTls (routes : List Route) (request : RequestText) (raw : Bytes)
    (io : RequestIo) : Answer :=
  if request.path = ascii "/health" then .health
  else if request.path = ascii "/" then .rootPage
  else if serveStaticTls io.view request.path routes io.writes then .staticFile
  else
    match proxyRequestTls routes request.path raw io.net with
    | .forwarded written => .proxied written
    | .declined => .notFound

/-- A request that is proxied matched a proxy route, and the buffer went through the send
loop. -/
theorem route_request_tls_proxied {routes : List Route} {request : RequestText}
    {raw written : Bytes} {io : RequestIo}
    (h : routeRequestTls routes request raw io = .proxied written) :
    (routes.find? (servesProxy request.path)).isSome ∧ written = sendLoop raw io.net.sends := by
  unfold routeRequestTls at h
  split at h
  · cases h
  split at h
  · cases h
  split at h
  · cases h
  split at h
  · rename_i written' hproxy
    cases h
    unfold proxyRequestTls at hproxy
    split at hproxy
    · cases hproxy
    rename_i hfind
    split at hproxy
    · cases hproxy
    split at hproxy
    · cases hproxy
      exact ⟨by rw [hfind]; rfl, rfl⟩
    · cases hproxy
  · cases h

end Emme.Router

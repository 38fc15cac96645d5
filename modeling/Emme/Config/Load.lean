import Emme.Router.Dispatch

/-!
# Loading the configuration

The part of `load_config` that decides about routes and response headers. The document is the tree
that the YAML library returns; a C string in a buffer of `size` bytes is a `CText size`. Without the
header settings the routes are those of `Emme.Config.Route` (`parse_site_routes_table`).
-/

namespace Emme.Config

open CString FileTree Emme.Http Emme.Router

/-! ## The document -/

/-- A node of the document. -/
inductive Yaml where
  | scalar (text : Bytes)
  | sequence (items : List Yaml)
  | mapping (pairs : List (Yaml × Yaml))

/-- A scalar. -/
def Yaml.text (text : String) : Yaml := .scalar (ascii text)

/-- A mapping with these keys. -/
def Yaml.record (fields : List (String × Yaml)) : Yaml :=
  .mapping (fields.map fun (key, value) => (.text key, value))

/-- The node is a scalar with this text. -/
def Yaml.isText (text : Bytes) : Yaml → Bool
  | .scalar value => value = text
  | _ => false

/-- `find_yaml_node`. -/
def findYamlNode (node : Yaml) (key : Bytes) : Option Yaml :=
  match node with
  | .mapping pairs => (pairs.find? fun pair => pair.1.isText key).map Prod.snd
  | _ => none

/-- A C string in a buffer of `size` bytes. -/
abbrev CText (size : Nat) := { text : Bytes // text.length < size }

/-- The empty string, as `memset` leaves it. -/
def CText.empty {size : Nat} (hsize : 0 < size) : CText size := ⟨[], hsize⟩

/-- `get_yaml_string`, with what its success guarantees. -/
def getText (size : Nat) : Yaml → Option (CText size)
  | .scalar text => if h : text.length < size then some ⟨text, h⟩ else none
  | _ => none

/-- A field whose absence leaves the buffer empty. -/
def getOptionalText {size : Nat} (hsize : 0 < size) : Option Yaml → Option (CText size)
  | none => some (.empty hsize)
  | some node => getText size node

/-- What `get_yaml_string` leaves in an empty buffer whether or not it succeeds. -/
def leaveText {size : Nat} (hsize : 0 < size) : Option Yaml → CText size
  | some (.scalar text) =>
      ⟨text.take (size - 1), (List.length_take_le _ _).trans_lt (Nat.sub_one_lt_of_lt hsize)⟩
  | _ => .empty hsize

/-- `tolower`. -/
def toLower (b : UInt8) : UInt8 := if 65 ≤ b && b ≤ 90 then b + 32 else b

/-- `strcasecmp(left, right) == 0`. -/
def strcasecmpEq (left right : Bytes) : Bool := left.map toLower = right.map toLower

/-- `get_yaml_bool`. -/
def getYamlBool : Yaml → Option Bool
  | .scalar text =>
      if strcasecmpEq text (ascii "true") || text = ascii "1" || strcasecmpEq text (ascii "yes")
      then some true
      else if strcasecmpEq text (ascii "false") || text = ascii "0" ||
          strcasecmpEq text (ascii "no") then some false
      else none
  | _ => none

/-- `get_yaml_int`; the conversion of the `long` to an `int` wraps around. -/
def getYamlInt : Yaml → Option Int32
  | .scalar text =>
      match strtol text with
      | (value, []) => some (Int32.ofInt value)
      | _ => none
  | _ => none

/-- A field that keeps its default if it is absent or not of its type. -/
def getField {α : Type} (get : Yaml → Option α) (node : Yaml) (key : Bytes) (default : α) : α :=
  ((findYamlNode node key).bind get).getD default

/-! ## Header settings -/

/-- `MAX_SECURITY_HEADERS`. -/
def maxSecurityHeaders : Nat := 10

/-- `SecurityHeader`. -/
structure SecurityHeader where
  name : CText 64
  value : CText 256
  deriving DecidableEq

/-- `SecurityHeadersConfig`, with the first `header_count` headers. -/
structure SecurityHeadersConfig where
  enabled : Bool
  headers : List SecurityHeader
  count_le : headers.length ≤ maxSecurityHeaders
  deriving DecidableEq

/-- `CORSConfig`. -/
structure CORSConfig where
  enabled : Bool
  allowOrigin : CText 256
  allowMethods : CText 128
  allowHeaders : CText 256
  allowCredentials : Bool
  maxAgeSeconds : Int32
  deriving DecidableEq

/-- The record with no headers that a static initialiser leaves. -/
def SecurityHeadersConfig.none : SecurityHeadersConfig := ⟨false, [], Nat.zero_le _⟩

/-- The record with no settings that a static initialiser leaves. -/
def CORSConfig.none : CORSConfig where
  enabled := false
  allowOrigin := .empty (by decide)
  allowMethods := .empty (by decide)
  allowHeaders := .empty (by decide)
  allowCredentials := false
  maxAgeSeconds := 0

/-- An entry of the `headers` sequence; `none` is passed over. -/
def parseSecurityHeader (node : Yaml) : Option SecurityHeader := do
  let name ← (findYamlNode node (ascii "name")).bind (getText 64)
  let value ← (findYamlNode node (ascii "value")).bind (getText 256)
  some ⟨name, value⟩

/-- `parse_security_headers_config`; the loop over the entries ends when the array is full. -/
def parseSecurityHeadersConfig : Option Yaml → SecurityHeadersConfig
  | some (.mapping pairs) =>
      { enabled := getField getYamlBool (.mapping pairs) (ascii "enabled") false
        headers :=
          match findYamlNode (.mapping pairs) (ascii "headers") with
          | some (.sequence items) =>
              (items.filterMap parseSecurityHeader).take maxSecurityHeaders
          | _ => []
        count_le := by
          split
          · exact List.length_take_le _ _
          · exact Nat.zero_le _ }
  | _ => .none

/-- `parse_cors_config`. -/
def parseCorsConfig : Option Yaml → CORSConfig
  | some (.mapping pairs) =>
      { enabled := getField getYamlBool (.mapping pairs) (ascii "enabled") false
        allowOrigin := leaveText (by decide) (findYamlNode (.mapping pairs) (ascii "allow_origin"))
        allowMethods :=
          leaveText (by decide) (findYamlNode (.mapping pairs) (ascii "allow_methods"))
        allowHeaders :=
          leaveText (by decide) (findYamlNode (.mapping pairs) (ascii "allow_headers"))
        allowCredentials :=
          getField getYamlBool (.mapping pairs) (ascii "allow_credentials") false
        maxAgeSeconds := getField getYamlInt (.mapping pairs) (ascii "max_age_seconds") 86400 }
  | _ => { CORSConfig.none with maxAgeSeconds := 86400 }

/-! ## Routes -/

/-- `Route` with its header settings. -/
structure SiteRoute extends Route where
  securityHeaders : SecurityHeadersConfig
  inheritGlobalHeaders : Bool
  cors : CORSConfig
  deriving DecidableEq

/-- `ServerConfig`, as far as routes and headers go. -/
structure SiteConfig where
  routes : List SiteRoute
  securityHeaders : SecurityHeadersConfig
  deriving DecidableEq

/-- The routes without their header settings. -/
def SiteConfig.table (config : SiteConfig) : List Route := config.routes.map SiteRoute.toRoute

/-- `parse_route_entry`, for the route after `count` others. -/
def parseSiteRoute (view : View) (count : Nat) (node : Yaml) : Option SiteRoute :=
  if maxRoutes ≤ count then none
  else do
    let path ← (findYamlNode node (ascii "path")).bind (getText 128)
    let technology ← (findYamlNode node (ascii "technology")).bind (getText 32)
    let documentRoot ←
      getOptionalText (by decide : 0 < 256) (findYamlNode node (ascii "document_root"))
    let backend ← getOptionalText (by decide : 0 < 64) (findYamlNode node (ascii "backend"))
    let real := resolveDocumentRoot view documentRoot.1
    some
      { path := path.1, technology := technology.1, documentRoot := documentRoot.1
        documentRootReal := real.1, documentRootResolved := real.2, backend := backend.1
        securityHeaders :=
          parseSecurityHeadersConfig (findYamlNode node (ascii "security_headers"))
        inheritGlobalHeaders :=
          getField getYamlBool node (ascii "inherit_global_headers") true
        cors := parseCorsConfig (findYamlNode node (ascii "cors")) }

/-- The body of the loop of `parse_routes_section`. -/
def addSiteRoute (view : View) (routes : List SiteRoute) : Yaml → Option (List SiteRoute)
  | .mapping pairs =>
      (parseSiteRoute view routes.length (.mapping pairs)).map fun route => routes ++ [route]
  | _ => none

/-- `parse_routes_section`. -/
def parseSiteRoutes (view : View) : Yaml → Option (List SiteRoute)
  | .sequence items => items.foldlM (addSiteRoute view) []
  | _ => none

/-- `parse_backend_url`: `sscanf(backend, "%255[^:]:%d%c", ..) == 2` and a port in range. -/
def parseBackendUrl (backend : Bytes) : Option (Bytes × Int32) :=
  let host := (backend.take 255).takeWhile (· ≠ 58)
  if host = [] then none
  else
    match backend.drop host.length with
    | 58 :: rest =>
        match scanInt rest with
        | some (port, []) => if 1 ≤ port ∧ port ≤ 65535 then some (host, port) else none
        | _ => none
    | _ => none

/-- The body of the loop of `validate_routes`. -/
def validateRoute (route : Route) : Bool :=
  route.path.head? = some slash &&
    if route.technology = ascii "static" then route.documentRoot ≠ []
    else if route.technology = ascii "reverse_proxy" then (parseBackendUrl route.backend).isSome
    else false

/-- `load_config` on a document. -/
def loadConfig (view : View) (root : Yaml) : Option SiteConfig :=
  match root with
  | .mapping pairs => do
      let routes ←
        match findYamlNode (.mapping pairs) (ascii "routes") with
        | none => some []
        | some node => parseSiteRoutes view node
      let securityHeaders := parseSecurityHeadersConfig
        (findYamlNode (.mapping pairs) (ascii "security_headers"))
      if routes.all fun route => validateRoute route.toRoute then
        some { routes, securityHeaders }
      else none
  | _ => none

/-! ## Without the header settings -/

/-- The node as `Emme.Config.Route` sees it. -/
def Yaml.kind : Yaml → YamlNode
  | .scalar text => .scalar text
  | _ => .collection

/-- An entry of the `routes` sequence as `Emme.Config.Route` sees it. -/
def Yaml.routeNode : Yaml → Option RouteNode
  | .mapping pairs =>
      some
        { path := (findYamlNode (.mapping pairs) (ascii "path")).map Yaml.kind
          technology := (findYamlNode (.mapping pairs) (ascii "technology")).map Yaml.kind
          documentRoot := (findYamlNode (.mapping pairs) (ascii "document_root")).map Yaml.kind
          backend := (findYamlNode (.mapping pairs) (ascii "backend")).map Yaml.kind }
  | _ => none

/-- The text of a scalar is the one that `get_yaml_string` copies. -/
theorem get_text_kind (size : Nat) (node : Yaml) :
    (getText size node).map Subtype.val = getYamlString node.kind size := by
  cases node with
  | scalar text =>
      by_cases hfits : text.length < size
      · simp [getText, Yaml.kind, getYamlString, hfits]
      · simp [getText, Yaml.kind, getYamlString, hfits, Nat.not_lt.mp hfits]
  | sequence items => rfl
  | mapping pairs => rfl

/-- The same for a node that may be missing. -/
theorem bind_get_text (size : Nat) (node : Option Yaml) :
    (node.map Yaml.kind).bind (getYamlString · size) =
      (node.bind (getText size)).map Subtype.val := by
  cases node with
  | none => rfl
  | some node => exact (get_text_kind size node).symm

/-- The same for a text that may be missing. -/
theorem get_optional_text_kind {size : Nat} (hsize : 0 < size) (node : Option Yaml) :
    getOptionalString (node.map Yaml.kind) size =
      (getOptionalText hsize node).map Subtype.val := by
  cases node with
  | none => rfl
  | some node => exact (get_text_kind size node).symm

/-- Without the header settings an entry is the one `parseRouteEntry` adds. -/
theorem parse_site_route_entry (view : View) (routes : List SiteRoute)
    (pairs : List (Yaml × Yaml)) :
    ((parseSiteRoute view routes.length (.mapping pairs)).map fun route =>
        (⟨(routes ++ [route]).map SiteRoute.toRoute⟩ : ServerConfig)) =
      (Yaml.mapping pairs).routeNode.bind
        (parseRouteEntry view ⟨routes.map SiteRoute.toRoute⟩) := by
  simp only [parseSiteRoute, Yaml.routeNode, Option.bind_some, parseRouteEntry,
    List.length_map, bind_get_text, get_optional_text_kind (by decide : 0 < 256),
    get_optional_text_kind (by decide : 0 < 64)]
  split
  · rfl
  · cases (findYamlNode (.mapping pairs) (ascii "path")).bind (getText 128) with
    | none => rfl
    | some path =>
        cases (findYamlNode (.mapping pairs) (ascii "technology")).bind (getText 32) with
        | none => rfl
        | some technology =>
            cases getOptionalText (by decide : 0 < 256)
                (findYamlNode (.mapping pairs) (ascii "document_root")) with
            | none => rfl
            | some documentRoot =>
                cases getOptionalText (by decide : 0 < 64)
                    (findYamlNode (.mapping pairs) (ascii "backend")) with
                | none => rfl
                | some backend => simp

/-- Without their header settings the routes are those that `parseRoutesSection` loads. -/
theorem parse_site_routes_table (view : View) (items : List Yaml) :
    ((parseSiteRoutes view (.sequence items)).map fun routes =>
        (⟨routes.map SiteRoute.toRoute⟩ : ServerConfig)) =
      parseRoutesSection view (items.map Yaml.routeNode) := by
  -- the two loops run side by side from any routes loaded so far
  have hfold : ∀ start : List SiteRoute,
      ((items.foldlM (addSiteRoute view) start).map fun routes =>
          (⟨routes.map SiteRoute.toRoute⟩ : ServerConfig)) =
        (items.map Yaml.routeNode).foldlM
          (fun config node => node.bind (parseRouteEntry view config))
          ⟨start.map SiteRoute.toRoute⟩ := by
    induction items with
    | nil => exact fun start => rfl
    | cons item items ih =>
        intro start
        rw [List.map_cons, List.foldlM_cons, List.foldlM_cons]
        cases item with
        | scalar text => rfl
        | sequence inner => rfl
        | mapping pairs =>
            rw [← parse_site_route_entry, addSiteRoute]
            cases parseSiteRoute view start.length (.mapping pairs) with
            | none => rfl
            | some route => exact ih (start ++ [route])
  exact hfold []

end Emme.Config

import Emme.Lib.FileTree

/-!
# Routes of the configuration

The route table as `parse_routes_section` fills it from the `routes` sequence of the
configuration file, one `parse_route_entry` at a time. A route's document root is resolved with
`realpath` when the file is loaded; `RootRecorded` is what the rest of the server may rely on.
-/

namespace Emme.Config

open CString FileTree

/-- `MAX_ROUTES`. -/
def maxRoutes : Nat := 16

/-- The fields of `Route` that the HTTP/1.1 request path reads. -/
structure Route where
  path : Bytes
  technology : Bytes
  documentRoot : Bytes
  documentRootReal : Bytes
  documentRootResolved : Bool
  backend : Bytes
  deriving DecidableEq, Repr

/-- The part of `ServerConfig` that `parse_route_entry` fills in. -/
structure ServerConfig where
  routes : List Route
  deriving DecidableEq, Repr

/-- A node of the parsed YAML document, as far as its type matters here. -/
inductive YamlNode where
  | scalar (value : Bytes)
  | collection
  deriving DecidableEq, Repr

/-- What `find_yaml_node` finds in one entry of the `routes` sequence. -/
structure RouteNode where
  path : Option YamlNode
  technology : Option YamlNode
  documentRoot : Option YamlNode
  backend : Option YamlNode

/-- `get_yaml_string`: a scalar that fits the buffer of `size` bytes with its terminator. -/
def getYamlString (node : YamlNode) (size : Nat) : Option Bytes :=
  match node with
  | .scalar value => if size ≤ value.length then none else some value
  | .collection => none

/-- A field whose absence leaves the buffer empty. -/
def getOptionalString (node : Option YamlNode) (size : Nat) : Option Bytes :=
  match node with
  | none => some []
  | some node => getYamlString node size

/-- The end of `parse_route_entry`: resolve the document root, or keep it as it is written. -/
def resolveDocumentRoot (view : View) (documentRoot : Bytes) : Bytes × Bool :=
  if documentRoot = [] then ([], false)
  else
    match realpath view documentRoot with
    | some real => (real, true)
    | none => (documentRoot.take (pathMax - 1), false)

/-- `parse_route_entry`: the route that an entry of the document describes is added to the
configuration. -/
def parseRouteEntry (view : View) (config : ServerConfig) (node : RouteNode) :
    Option ServerConfig :=
  if maxRoutes ≤ config.routes.length then none
  else do
    let path ← node.path.bind (getYamlString · 128)
    let technology ← node.technology.bind (getYamlString · 32)
    let documentRoot ← getOptionalString node.documentRoot 256
    let backend ← getOptionalString node.backend 64
    let real := resolveDocumentRoot view documentRoot
    some { routes := config.routes ++
      [{ path, technology, documentRoot, documentRootReal := real.1,
         documentRootResolved := real.2, backend }] }

/-- The loop of `parse_routes_section`, which stops at the first entry that fails; `none` is an
entry that is not a mapping. -/
def parseRoutesSection (view : View) (nodes : List (Option RouteNode)) : Option ServerConfig :=
  nodes.foldlM (fun config node => node.bind (parseRouteEntry view config)) { routes := [] }

/-- A resolved document root is recorded with its canonical path. -/
def RootRecorded (view : View) (route : Route) : Prop :=
  route.documentRootResolved = true →
    realpath view route.documentRoot = some route.documentRootReal

/-- A document root that is recorded as resolved is what `realpath` returned for it. -/
theorem resolve_document_root_recorded (view : View) (documentRoot : Bytes)
    (h : (resolveDocumentRoot view documentRoot).2 = true) :
    realpath view documentRoot = some (resolveDocumentRoot view documentRoot).1 := by
  unfold resolveDocumentRoot at h ⊢
  split at h
  · cases h
  · split at h
    · rename_i hroot _ _ hreal
      rw [if_neg hroot, hreal]
    · cases h

/-- What one entry adds to the table. -/
theorem parse_route_entry_eq_some {view : View} {config config' : ServerConfig}
    {node : RouteNode} (h : parseRouteEntry view config node = some config') :
    ∃ route, RootRecorded view route ∧ config'.routes = config.routes ++ [route] := by
  unfold parseRouteEntry at h
  split at h
  · cases h
  · simp only [Option.bind_eq_bind, Option.bind_eq_some_iff] at h
    obtain ⟨path, -, technology, -, documentRoot, -, backend, -, h⟩ := h
    cases h
    refine ⟨_, ?_, rfl⟩
    exact resolve_document_root_recorded view documentRoot

/-- Every route of a loaded table records its document root. -/
theorem parse_routes_section_recorded {view : View} {nodes : List (Option RouteNode)}
    {config : ServerConfig} (h : parseRoutesSection view nodes = some config) :
    ∀ route ∈ config.routes, RootRecorded view route := by
  -- the invariant is carried along the entries from any table that has it
  have hfold : ∀ start : ServerConfig, (∀ route ∈ start.routes, RootRecorded view route) →
      nodes.foldlM (fun config node => node.bind (parseRouteEntry view config)) start =
        some config →
      ∀ route ∈ config.routes, RootRecorded view route := by
    clear h
    induction nodes with
    | nil =>
        intro start hstart h
        cases h
        exact hstart
    | cons node nodes ih =>
        intro start hstart h
        rw [List.foldlM_cons] at h
        obtain ⟨next, hentry, h⟩ := Option.bind_eq_some_iff.mp h
        obtain ⟨mapping, -, hnext⟩ := Option.bind_eq_some_iff.mp hentry
        obtain ⟨added, hadded, hroutes⟩ := parse_route_entry_eq_some hnext
        refine ih next (fun route hroute => ?_) h
        rw [hroutes] at hroute
        rcases List.mem_append.mp hroute with hroute | hroute
        · exact hstart route hroute
        · rw [List.mem_singleton.mp hroute]
          exact hadded
  exact hfold _ (fun route hroute => absurd hroute List.not_mem_nil) h

end Emme.Config

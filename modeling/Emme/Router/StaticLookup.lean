import Emme.Config.Route

/-!
# Static files

`lookup_static_file` joins the document root of the first matching static route with the rest of the
request path, opens the result and compares the canonical paths of the two as strings. A file that
is served lies at or below the document root, whatever dots and symbolic links led to it.
-/

namespace Emme.Router

open CString FileTree Emme.Config

/-- `FILEPATH_BUFFER_SIZE`. -/
def filepathBufferSize : Nat := 512

/-- `StaticLookupResult` with what a successful lookup hands out: the open file, its size and
its content type. -/
inductive StaticLookup where
  | error
  | noRoute
  | notFound
  | forbidden
  | ready (file : Position) (filesize : Nat) (contentType : Bytes)
  deriving DecidableEq, Repr

/-- The extensions `guess_content_type` knows. -/
def contentTypes : List (Bytes × Bytes) :=
  [(ascii ".html", ascii "text/html"), (ascii ".htm", ascii "text/html"),
    (ascii ".css", ascii "text/css"), (ascii ".js", ascii "application/javascript"),
    (ascii ".json", ascii "application/json"), (ascii ".txt", ascii "text/plain"),
    (ascii ".png", ascii "image/png"), (ascii ".jpg", ascii "image/jpeg"),
    (ascii ".jpeg", ascii "image/jpeg")]

/-- `guess_content_type`: the type for the text from the last dot on. -/
def guessContentType (path : Bytes) : Bytes :=
  match strrchr path 46 with
  | none => ascii "application/octet-stream"
  | some ext => (contentTypes.lookup ext).getD (ascii "application/octet-stream")

/-- The path that is opened: document root and the rest of the request path, with one slash
between them if the root does not end in one. -/
def staticFilepath (route : Route) (path : Bytes) : Bytes :=
  let rest := path.drop route.path.length
  if route.documentRoot.getLast? = some slash then route.documentRoot ++ rest
  else route.documentRoot ++ slash :: rest

/-- `root_real`: the root as recorded at load time, else as it resolves now. -/
def rootReal (view : View) (route : Route) : Option Bytes :=
  if route.documentRootResolved then some (route.documentRootReal.take (pathMax - 1))
  else realpath view route.documentRoot

/-- The comparison of the two canonical paths. -/
def withinRoot (fileReal rootReal : Bytes) : Bool :=
  strncmpEq fileReal rootReal rootReal.length &&
    (charAt fileReal rootReal.length = none || charAt fileReal rootReal.length = some slash)

/-- The body of the loop of `lookup_static_file`, for the route that matched. -/
def openStaticFile (view : View) (path : Bytes) (route : Route) : StaticLookup :=
  if route.documentRoot = [] then .error
  else if filepathBufferSize ≤ (staticFilepath route path).length then .error
  else
    match rootReal view route with
    | none => .error
    | some root =>
        match openRead view (staticFilepath route path) with
        | none => .notFound
        | some file =>
            match realpath view (staticFilepath route path) with
            | none => .notFound
            | some fileReal =>
                if withinRoot fileReal root then
                  match view.size file with
                  | none => .error
                  | some filesize => .ready file filesize (guessContentType fileReal)
                else .forbidden

/-- `lookup_static_file`, over the routes that are left. -/
def lookupStaticFile (view : View) (path : Bytes) : List Route → StaticLookup
  | [] => .noRoute
  | route :: routes =>
      if route.technology = ascii "static" then
        if path.length < route.path.length then lookupStaticFile view path routes
        else if strncmpEq path route.path route.path.length then openStaticFile view path route
        else lookupStaticFile view path routes
      else lookupStaticFile view path routes

/-- The route is a static one whose path starts the request's. -/
def servesStatic (path : Bytes) (route : Route) : Bool :=
  route.technology = ascii "static" && route.path.isPrefixOf path

/-- The loop ends at the first static route whose path starts the request's. -/
theorem lookup_static_file_eq (view : View) (path : Bytes) (routes : List Route) :
    lookupStaticFile view path routes =
      match routes.find? (servesStatic path) with
      | none => .noRoute
      | some route => openStaticFile view path route := by
  induction routes with
  | nil => rfl
  | cons route routes ih =>
      rw [lookupStaticFile]
      by_cases hstatic : route.technology = ascii "static"
      · by_cases hpre : route.path <+: path
        · have hserves : servesStatic path route = true := by
            simp [servesStatic, hstatic, hpre]
          rw [if_pos hstatic, if_neg (Nat.not_lt.mpr hpre.length_le),
            if_pos (strncmp_eq_of_starts hpre), List.find?_cons_of_pos hserves]
        · have hserves : ¬ servesStatic path route = true := by
            simp [servesStatic, hpre]
          have hcmp : ¬ strncmpEq path route.path route.path.length = true :=
            fun h => hpre (prefix_of_strncmp_eq h)
          rw [if_pos hstatic, if_neg hcmp, ite_self, List.find?_cons_of_neg hserves, ih]
      · have hserves : ¬ servesStatic path route = true := by
          simp [servesStatic, hstatic]
        rw [if_neg hstatic, List.find?_cons_of_neg hserves, ih]

/-- The size and the content type that a lookup gives. -/
theorem lookup_static_file_ready {view : View} {path contentType : Bytes}
    {routes : List Route} {file : Position} {filesize : Nat}
    (h : lookupStaticFile view path routes = .ready file filesize contentType) :
    view.size file = some filesize ∧
      contentType ∈ ascii "application/octet-stream" :: contentTypes.map Prod.snd := by
  rw [lookup_static_file_eq] at h
  split at h
  · cases h
  unfold openStaticFile at h
  split at h
  · cases h
  split at h
  · cases h
  split at h
  · cases h
  split at h
  · cases h
  split at h
  · cases h
  split at h
  · split at h
    · cases h
    · rename_i hsize
      cases h
      refine ⟨hsize, ?_⟩
      unfold guessContentType
      split
      · exact List.mem_cons_self
      · rename_i ext _
        cases hlookup : contentTypes.lookup ext with
        | none => exact List.mem_cons_self
        | some found =>
            obtain ⟨front, back, heq, -⟩ := List.lookup_eq_some_iff.mp hlookup
            rw [heq]
            simp
  · cases h

/-- What a successful lookup has checked. -/
theorem open_static_file_ready {view : View} {path : Bytes} {route : Route} {file : Position}
    {filesize : Nat} {contentType : Bytes}
    (h : openStaticFile view path route = .ready file filesize contentType) :
    ∃ root fileReal, rootReal view route = some root ∧
      openRead view (staticFilepath route path) = some file ∧
      realpath view (staticFilepath route path) = some fileReal ∧
      withinRoot fileReal root = true := by
  unfold openStaticFile at h
  split at h
  · cases h
  split at h
  · cases h
  split at h
  · cases h
  rename_i root hroot
  split at h
  · cases h
  rename_i file' hopen
  split at h
  · cases h
  rename_i fileReal hreal
  split at h
  · rename_i hwithin
    split at h
    · cases h
    · cases h
      exact ⟨root, fileReal, hroot, hopen, hreal, hwithin⟩
  · cases h

/-- Where the document root of a route lies: at its load-time position if it could be resolved
then, at its present one otherwise. -/
def rootPosition (loaded view : View) (route : Route) : Option Position :=
  canonical (if route.documentRootResolved then loaded else view) route.documentRoot

/-- `root_real` is the canonical path of the document root's position. -/
theorem root_real_eq_some {loaded view : View} {route : Route} {root : Bytes}
    (hrecorded : RootRecorded loaded route) (h : rootReal view route = some root) :
    ∃ position, rootPosition loaded view route = some position ∧ root = render position ∧
      ∀ name ∈ position, Proper name := by
  unfold rootReal at h
  unfold rootPosition
  split at h
  · rename_i hresolved
    obtain ⟨position, hposition, hreal, hlen⟩ := realpath_eq_some (hrecorded hresolved)
    cases h
    refine ⟨position, by rwa [if_pos hresolved], ?_, canonical_proper hposition⟩
    rw [List.take_of_length_le (Nat.le_sub_one_of_lt hlen), hreal]
  · rename_i hresolved
    obtain ⟨position, hposition, hreal, -⟩ := realpath_eq_some h
    exact ⟨position, by rwa [if_neg hresolved], hreal, canonical_proper hposition⟩

/-- The comparison accepts positions at or below the root only. -/
theorem within_root_prefix {file root : Position} (hfile : ∀ name ∈ file, Proper name)
    (hroot : ∀ name ∈ root, Proper name) (h : withinRoot (render file) (render root) = true) :
    root <+: file := by
  simp only [withinRoot, Bool.and_eq_true, Bool.or_eq_true, decide_eq_true_eq] at h
  exact prefix_of_render_prefix hfile hroot (prefix_of_strncmp_eq h.1) h.2

/-- A position below `parent/name` is not below a sibling whose name extends `name`. -/
theorem not_below_extended {parent file : Position} {name extra : Name} {below : Position}
    (hextra : extra ≠ []) (h : parent ++ [name] <+: file) :
    file ≠ parent ++ (name ++ extra) :: below := by
  rintro rfl
  obtain ⟨rest, hrest⟩ := h
  rw [List.append_assoc, List.append_cancel_left_eq, List.singleton_append,
    List.cons.injEq] at hrest
  exact hextra (List.append_right_eq_self.mp hrest.1.symm)

/-- **Containment.** A file that is served is the one the joined path names; it lies at or below
the document root of the first matching static route, component by component, and never below a
sibling directory whose name extends the root's. -/
theorem lookup_static_file_within_root {loaded view : View} {nodes : List (Option RouteNode)}
    {config : ServerConfig} (hload : parseRoutesSection loaded nodes = some config)
    {path : Bytes} {file : Position} {filesize : Nat} {contentType : Bytes}
    (h : lookupStaticFile view path config.routes = .ready file filesize contentType) :
    ∃ route root, config.routes.find? (servesStatic path) = some route ∧
      openRead view (staticFilepath route path) = some file ∧
      realpath view (staticFilepath route path) = some (render file) ∧
      rootPosition loaded view route = some root ∧ root <+: file ∧
      ∀ parent name extra below, root = parent ++ [name] → extra ≠ [] →
        file ≠ parent ++ (name ++ extra) :: below := by
  rw [lookup_static_file_eq] at h
  split at h
  · cases h
  · rename_i route hfind
    have hrecorded := parse_routes_section_recorded hload route (List.mem_of_find?_eq_some hfind)
    obtain ⟨root, fileReal, hroot, hopen, hreal, hwithin⟩ := open_static_file_ready h
    obtain ⟨position, hposition, rfl, hproper⟩ := root_real_eq_some hrecorded hroot
    have hfile := open_read_eq_some hopen
    obtain ⟨file', hfile', rfl, -⟩ := realpath_eq_some hreal
    obtain rfl : file = file' := Option.some.inj (hfile.symm.trans hfile')
    have hpre := within_root_prefix (canonical_proper hfile) hproper hwithin
    refine ⟨route, position, hfind, hopen, hreal, hposition, hpre, ?_⟩
    rintro parent name extra below rfl hextra
    exact not_below_extended hextra hpre

/-- A site under `/srv/www` with a link to itself, beside a directory `/srv/www-old`. -/
def exampleNode (position : Position) : Option Node :=
  [([], Node.directory), ([ascii "srv"], .directory), ([ascii "srv", ascii "www"], .directory),
    ([ascii "srv", ascii "www", ascii "a.txt"], .file),
    ([ascii "srv", ascii "www", ascii "self"], .link (ascii "/srv/www")),
    ([ascii "srv", ascii "www-old"], .directory),
    ([ascii "srv", ascii "www-old", ascii "b.txt"], .file)].lookup position

/-- The site, seen from the top directory; every file has five bytes. -/
def exampleView : View where
  node := exampleNode
  readable := fun _ => true
  size := fun _ => some 5
  cwd := []
  cwd_proper := root_proper

/-- One static route, for all paths. -/
def exampleRoutes : List (Option RouteNode) :=
  [some ⟨some (.scalar (ascii "/")), some (.scalar (ascii "static")),
    some (.scalar (ascii "/srv/www")), none⟩]

/-- The table `exampleRoutes` loads to. -/
def exampleConfig : ServerConfig :=
  ⟨[⟨ascii "/", ascii "static", ascii "/srv/www", ascii "/srv/www", true, []⟩]⟩

/-- A request that goes through the link finds a file inside the root. -/
theorem lookup_through_link_within_root :
    parseRoutesSection exampleView exampleRoutes = some exampleConfig ∧
      lookupStaticFile exampleView (ascii "/self/../www/./a.txt") exampleConfig.routes =
        .ready [ascii "srv", ascii "www", ascii "a.txt"] 5 (ascii "text/plain") ∧
      ∃ route root, rootPosition exampleView exampleView route = some root ∧
        root <+: [ascii "srv", ascii "www", ascii "a.txt"] := by
  have hload : parseRoutesSection exampleView exampleRoutes = some exampleConfig := by
    decide +kernel
  have hready : lookupStaticFile exampleView (ascii "/self/../www/./a.txt")
      exampleConfig.routes =
        .ready [ascii "srv", ascii "www", ascii "a.txt"] 5 (ascii "text/plain") := by
    decide +kernel
  obtain ⟨route, root, -, -, -, hroot, hbelow, -⟩ := lookup_static_file_within_root hload hready
  exact ⟨hload, hready, route, root, hroot, hbelow⟩

/-- The sibling `/srv/www-old` passes the string prefix but not the boundary test. -/
example : lookupStaticFile exampleView (ascii "/../www-old/b.txt") exampleConfig.routes =
    .forbidden := by decide +kernel

end Emme.Router

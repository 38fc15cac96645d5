import Emme.Router.StaticLookup

/-!
# Which files are refused

The containment test of `lookup_static_file` requires the end or a slash behind the root's canonical
path. If `document_root` resolves to `/`, that path ends with a slash already and every file is
refused; otherwise none below it is (`below_root_not_forbidden_iff`).
-/

namespace Emme.Router

open CString FileTree Emme.Config

/-! ## The comparison of canonical paths -/

/-- The text of a position below another is the text of both. -/
theorem joined_position_append (root names : Position) :
    joined (root ++ names) = joined root ++ joined names :=
  List.flatMap_append

/-- The path of any position but the top is its names. -/
theorem render_of_ne_nil {position : Position} (h : position ≠ []) :
    render position = joined position := if_neg h

variable {root : Position} {names : List Name} {view : View} {route : Route}

/-- A position below the root passes, if the root is not that of the file system. -/
theorem within_root_below {names : Position} (hroot : root ≠ []) (hnames : names ≠ []) :
    withinRoot (render (root ++ names)) (render root) = true := by
  have hlong : root ++ names ≠ [] := List.append_ne_nil_of_left_ne_nil hroot names
  obtain ⟨name, rest, rfl⟩ := List.exists_cons_of_ne_nil hnames
  rw [render_of_ne_nil hroot, render_of_ne_nil hlong, joined_position_append, withinRoot,
    strncmp_eq_of_starts (List.prefix_append _ _), charAt,
    List.getElem?_append_right (Nat.le_refl _), Nat.sub_self]
  rfl

/-- No position below the root of the file system passes. -/
theorem not_within_root_top {names : Position} (hnames : names ≠ [])
    (hproper : ∀ name ∈ names, Proper name) : withinRoot (render names) (render []) = false := by
  obtain ⟨name, rest, rfl⟩ := List.exists_cons_of_ne_nil hnames
  obtain ⟨hne, hslash⟩ := hproper name List.mem_cons_self
  obtain ⟨byte, name, rfl⟩ := List.exists_cons_of_ne_nil hne
  have hbyte : byte ≠ slash := fun heq => hslash (heq ▸ List.mem_cons_self)
  have hnext : charAt (render ((byte :: name) :: rest)) (render []).length = some byte := rfl
  rw [withinRoot, hnext]
  simp [hbyte]

/-! ## The lookup -/

/-- The path that is opened, for a request below the route. -/
theorem static_filepath_append (route : Route) (rest : Bytes) :
    staticFilepath route (route.path ++ rest) =
      if route.documentRoot.getLast? = some slash then route.documentRoot ++ rest
      else route.documentRoot ++ slash :: rest := by
  unfold staticFilepath
  rw [List.drop_left]

/-- The path that is opened for a file below the document root names that file. -/
theorem static_filepath_canonical (hcanonical : canonical view route.documentRoot = some root)
    (hroot : view.node root = some .directory) (hbelow : FileBelow view.toTree root names) :
    canonical view (staticFilepath route (route.path ++ relativePath names)) =
      some (root ++ names) := by
  rw [static_filepath_append]
  split
  · rename_i hslash
    exact canonical_append_of_slash hcanonical hslash hroot hbelow
  · exact canonical_append hcanonical hroot hbelow

/-- What a refused lookup has compared. -/
theorem open_static_file_forbidden {path : Bytes}
    (h : openStaticFile view path route = .forbidden) :
    ∃ root fileReal, rootReal view route = some root ∧
      realpath view (staticFilepath route path) = some fileReal ∧
      withinRoot fileReal root = false := by
  unfold openStaticFile at h
  split at h
  · cases h
  split at h
  · cases h
  split at h
  · cases h
  rename_i root hroot
  split at h
  · cases h
  split at h
  · cases h
  rename_i fileReal hreal
  split at h
  · split at h
    · cases h
    · cases h
  · rename_i hwithin
    exact ⟨root, fileReal, hroot, hreal, Bool.eq_false_iff.mpr hwithin⟩

/-- The root the lookup compares with, in the file system in which the routes were loaded. -/
theorem root_real_canonical {text : Bytes} (hrecorded : RootRecorded view route)
    (hcanonical : canonical view route.documentRoot = some root)
    (h : rootReal view route = some text) : text = render root := by
  obtain ⟨position, hposition, htext, -⟩ := root_real_eq_some hrecorded h
  unfold rootPosition at hposition
  rw [ite_self, hcanonical] at hposition
  rw [htext, Option.some.inj hposition]

/-- The top directory as document root has the path `/`. -/
theorem root_real_top (hrecorded : RootRecorded view route)
    (hcanonical : canonical view route.documentRoot = some []) :
    rootReal view route = some (render []) := by
  cases hreal : rootReal view route with
  | some text => rw [root_real_canonical hrecorded hcanonical hreal]
  | none =>
      unfold rootReal realpath at hreal
      rw [hcanonical] at hreal
      split at hreal
      · cases hreal
      · cases hreal

/-- The canonical path of a relative path from the root of the file system. -/
theorem joined_eq_relative_path (h : names ≠ []) : joined names = slash :: relativePath names := by
  induction names with
  | nil => exact absurd rfl h
  | cons name names ih =>
      cases names with
      | nil => simp [joined, relativePath]
      | cons next rest =>
          have hrest := ih (List.cons_ne_nil next rest)
          have hcons : joined (name :: next :: rest) =
              slash :: (name ++ joined (next :: rest)) := rfl
          rw [hcons, hrest]
          simp [relativePath]

/-- The relative path is a part of the path that is opened. -/
theorem relative_path_length_le (route : Route) (names : List Name) :
    (relativePath names).length ≤
      (staticFilepath route (route.path ++ relativePath names)).length := by
  rw [static_filepath_append]
  split
  · rw [List.length_append]
    omega
  · rw [List.length_append, List.length_cons]
    omega

/-- Every file below the root of the file system is refused. -/
theorem open_static_file_top (hrecorded : RootRecorded view route)
    (hcanonical : canonical view route.documentRoot = some [])
    (hroot : view.node [] = some .directory) (hbelow : FileBelow view.toTree [] names)
    (hreadable : view.readable names = true)
    (hlength : (staticFilepath route (route.path ++ relativePath names)).length <
      filepathBufferSize) :
    openStaticFile view (route.path ++ relativePath names) route = .forbidden := by
  have hfile := static_filepath_canonical hcanonical hroot hbelow
  rw [List.nil_append] at hfile
  have hreal : realpath view (staticFilepath route (route.path ++ relativePath names)) =
      some (render names) := by
    have hrelative := relative_path_length_le route names
    have hsize : filepathBufferSize = 512 := rfl
    have hmax : pathMax = 4096 := rfl
    unfold realpath
    rw [hfile, Option.bind_some, render_of_ne_nil hbelow.ne_nil,
      joined_eq_relative_path hbelow.ne_nil, if_pos]
    rw [List.length_cons]
    omega
  have hopen : openRead view (staticFilepath route (route.path ++ relativePath names)) =
      some names := by
    unfold openRead
    rw [hfile, Option.bind_some, if_pos hreadable]
  have hproper := fun name hname => (hbelow.entry_names name hname).1
  unfold openStaticFile
  rw [if_neg (ne_nil_of_canonical hcanonical), if_neg (Nat.not_le_of_lt hlength),
    root_real_top hrecorded hcanonical, hopen, hreal]
  dsimp only
  rw [not_within_root_top hbelow.ne_nil hproper]
  rfl

/-- **Which files are refused.** A request for a readable file below the document root, by the
route's path and the file's own path from there, is not refused exactly if the document root is not
the root of the file system. -/
theorem below_root_not_forbidden_iff {view : View} {nodes : List (Option RouteNode)}
    {config : ServerConfig} (hload : parseRoutesSection view nodes = some config) {path : Bytes}
    {route : Route} (hfind : config.routes.find? (servesStatic path) = some route)
    {root : Position} (hcanonical : canonical view route.documentRoot = some root)
    (hroot : view.node root = some .directory) {names : List Name}
    (hbelow : FileBelow view.toTree root names) (hreadable : view.readable (root ++ names) = true)
    (hpath : path = route.path ++ relativePath names)
    (hlength : (staticFilepath route path).length < filepathBufferSize) :
    lookupStaticFile view path config.routes ≠ .forbidden ↔ root ≠ [] := by
  have hrecorded := parse_routes_section_recorded hload route (List.mem_of_find?_eq_some hfind)
  rw [lookup_static_file_eq, hfind]
  dsimp only
  subst hpath
  constructor
  · rintro hserved rfl
    exact hserved (open_static_file_top hrecorded hcanonical hroot hbelow hreadable hlength)
  · intro hne hforbidden
    obtain ⟨text, fileReal, htext, hfile, hwithin⟩ := open_static_file_forbidden hforbidden
    obtain ⟨position, hposition, rfl, -⟩ := realpath_eq_some hfile
    rw [static_filepath_canonical hcanonical hroot hbelow] at hposition
    rw [root_real_canonical hrecorded hcanonical htext, ← Option.some.inj hposition,
      within_root_below hne hbelow.ne_nil] at hwithin
    cases hwithin

/-- The route of `exampleConfig`. -/
def exampleRoute : Route :=
  ⟨ascii "/", ascii "static", ascii "/srv/www", ascii "/srv/www", true, []⟩

/-- `/srv/www/a.txt` is not refused where `/srv/www` is the document root. -/
theorem below_root_not_forbidden_example :
    lookupStaticFile exampleView (ascii "/a.txt") exampleConfig.routes ≠ .forbidden := by
  have hload : parseRoutesSection exampleView exampleRoutes = some exampleConfig := by
    decide +kernel
  have hfind : exampleConfig.routes.find? (servesStatic (ascii "/a.txt")) = some exampleRoute := by
    decide +kernel
  have hcanonical : canonical exampleView exampleRoute.documentRoot =
      some [ascii "srv", ascii "www"] := by decide +kernel
  have hbelow : FileBelow exampleView.toTree [ascii "srv", ascii "www"] [ascii "a.txt"] := by
    decide +kernel
  exact (below_root_not_forbidden_iff hload hfind hcanonical (by decide +kernel) hbelow rfl
    (by decide +kernel) (by decide +kernel)).mpr (List.cons_ne_nil _ _)

/-- A table whose only document root is the root of the file system. -/
def topRoutes : List (Option RouteNode) :=
  [some ⟨some (.scalar (ascii "/")), some (.scalar (ascii "static")),
    some (.scalar (ascii "/")), none⟩]

/-- The route `topRoutes` loads to. -/
def topRoute : Route := ⟨ascii "/", ascii "static", ascii "/", ascii "/", true, []⟩

/-- The names of the path from there to a file. -/
def topNames : List Name := [ascii "srv", ascii "www", ascii "a.txt"]

/-- With the root of the file system as document root, `/srv/www/a.txt` is refused. -/
theorem top_root_forbids :
    parseRoutesSection exampleView topRoutes = some ⟨[topRoute]⟩ ∧
      [topRoute].find? (servesStatic (ascii "/srv/www/a.txt")) = some topRoute ∧
      canonical exampleView topRoute.documentRoot = some [] ∧
      exampleView.node [] = some .directory ∧ FileBelow exampleView.toTree [] topNames ∧
      exampleView.readable ([] ++ topNames) = true ∧
      ascii "/srv/www/a.txt" = topRoute.path ++ relativePath topNames ∧
      (staticFilepath topRoute (ascii "/srv/www/a.txt")).length < filepathBufferSize ∧
      lookupStaticFile exampleView (ascii "/srv/www/a.txt") [topRoute] = .forbidden := by
  decide +kernel

end Emme.Router

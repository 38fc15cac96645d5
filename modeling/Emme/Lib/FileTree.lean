import Emme.Lib.CString

/-!
# Path resolution

A file tree gives the node at every position, the list of names that leads to it. `canonical`
resolves a path as the kernel does, with `.`, `..` and symbolic links; `realpath` renders the
position. `prefix_of_render_prefix` turns a string prefix that ends at a component boundary into a
statement about positions.
-/

namespace FileTree

open CString

/-- A file name, or any other component of a path. -/
abbrev Name := Bytes

/-- The position of a node: the names on the way from the root. -/
abbrev Position := List Name

/-- The byte `/`. -/
def slash : UInt8 := 47

/-- The component `.`. -/
def dot : Name := [46]

/-- The component `..`. -/
def dotDot : Name := [46, 46]

/-- What stands at a position of the tree; a link leads to the path it holds. -/
inductive Node where
  | file
  | directory
  | link (target : Bytes)
  deriving DecidableEq, Repr

/-- What the system calls see of a file system. `size` is `none` for a node that cannot be
seeked to its end. -/
structure Tree where
  node : Position → Option Node
  readable : Position → Bool
  size : Position → Option Nat

/-- The components of a path. -/
def components (path : Bytes) : List Name := path.splitOn slash

/-- The path starts at the root. -/
def isAbsolute (path : Bytes) : Bool := path.head? = some slash

/-- How far a walk gets before the next symbolic link. -/
inductive Progress where
  | arrived (position : Position)
  | follow (position : Position) (todo : List Name)
  | stuck
  deriving DecidableEq, Repr

/-- Walk along the components from a directory, up to the first symbolic link. -/
def advance (tree : Tree) : Position → List Name → Progress
  | position, [] => .arrived position
  | position, name :: todo =>
      if name = [] ∨ name = dot then advance tree position todo
      else if name = dotDot then advance tree position.dropLast todo
      else
        match tree.node (position ++ [name]) with
        | some .directory => advance tree (position ++ [name]) todo
        | some .file => if todo = [] then .arrived (position ++ [name]) else .stuck
        | some (.link target) =>
            .follow (if isAbsolute target then [] else position) (components target ++ todo)
        | none => .stuck

/-- Walk along the components, following at most `links` symbolic links. -/
def resolve (tree : Tree) : Nat → Position → List Name → Option Position
  | links, position, todo =>
      match advance tree position todo with
      | .arrived position => some position
      | .stuck => none
      | .follow position todo =>
          match links with
          | 0 => none
          | links + 1 => resolve tree links position todo

/-- A name a directory entry can have, as far as paths depend on it. -/
def Proper (name : Name) : Prop := name ≠ [] ∧ slash ∉ name

/-- A process's view of the file system: the tree and the working directory. -/
structure View extends Tree where
  cwd : Position
  cwd_proper : ∀ name ∈ cwd, Proper name

/-- The root directory can be the working directory. -/
theorem root_proper : ∀ name ∈ ([] : Position), Proper name :=
  fun _ h => absurd h List.not_mem_nil

/-- The number of symbolic links after which the kernel gives up. -/
def maxLinks : Nat := 40

/-- The position a path names. -/
def canonical (view : View) (path : Bytes) : Option Position :=
  if path = [] then none
  else
    resolve view.toTree maxLinks (if isAbsolute path then [] else view.cwd) (components path)

/-- The names one after another, each after a slash. -/
def joined (position : Position) : Bytes := position.flatMap fun name => slash :: name

/-- The canonical path of a position. -/
def render (position : Position) : Bytes :=
  if position = [] then [slash] else joined position

/-- `PATH_MAX`. -/
def pathMax : Nat := 4096

/-- `realpath`: the canonical path, if it fits a buffer of `PATH_MAX` bytes. -/
def realpath (view : View) (path : Bytes) : Option Bytes :=
  (canonical view path).bind fun position =>
    if (render position).length < pathMax then some (render position) else none

/-- `open(path, O_RDONLY)`: the position of the node that was opened. -/
def openRead (view : View) (path : Bytes) : Option Position :=
  (canonical view path).bind fun position =>
    if view.readable position then some position else none

variable {view : View} {path : Bytes} {position reached root : Position} {todo names : List Name}
  {tree : Tree} {links : Nat}

/-- `realpath` returns the canonical path, if it is short enough. -/
theorem realpath_eq_some {real : Bytes} (h : realpath view path = some real) :
    ∃ position, canonical view path = some position ∧ real = render position ∧
      real.length < pathMax := by
  obtain ⟨position, hpos, hreal⟩ := Option.bind_eq_some_iff.mp h
  split at hreal
  · rename_i hlen
    cases hreal
    exact ⟨position, hpos, rfl, hlen⟩
  · cases hreal

/-- What has been opened is where the path leads. -/
theorem open_read_eq_some (h : openRead view path = some position) :
    canonical view path = some position := by
  obtain ⟨position', hpos, hopen⟩ := Option.bind_eq_some_iff.mp h
  split at hopen
  · cases hopen
    exact hpos
  · cases hopen

/-! ## Positions hold proper names -/

/-- Splitting at a separator leaves no separator. -/
theorem not_mem_of_mem_split_on {α : Type*} [BEq α] [LawfulBEq α] {sep : α} {xs piece : List α}
    (h : piece ∈ xs.splitOn sep) : sep ∉ piece := by
  induction xs generalizing piece with
  | nil =>
      rw [List.splitOn_nil, List.mem_singleton] at h
      subst h
      exact List.not_mem_nil
  | cons x xs ih =>
      rw [List.splitOn_cons_eq_if_modifyHead] at h
      split at h
      · rcases List.mem_cons.mp h with rfl | h
        · exact List.not_mem_nil
        · exact ih h
      · rename_i hx
        obtain ⟨first, rest, hsplit⟩ := List.exists_cons_of_ne_nil (List.splitOn_ne_nil sep xs)
        rw [hsplit, List.modifyHead_cons] at h
        rcases List.mem_cons.mp h with rfl | h
        · have hfirst : sep ∉ first := ih (hsplit ▸ List.mem_cons_self)
          intro hmem
          rcases List.mem_cons.mp hmem with rfl | hmem
          · exact hx (by simp)
          · exact hfirst hmem
        · exact ih (hsplit ▸ List.mem_cons_of_mem _ h)

/-- A component of a path has no slash in it. -/
theorem slash_not_mem_components {name : Name} (h : name ∈ components path) :
    slash ∉ name := not_mem_of_mem_split_on h

/-- Proper names behind, components free of slashes ahead. -/
def Progress.Proper : Progress → Prop
  | .arrived position => ∀ name ∈ position, FileTree.Proper name
  | .follow position todo =>
      (∀ name ∈ position, FileTree.Proper name) ∧ ∀ name ∈ todo, slash ∉ name
  | .stuck => True

/-- A walk along components that are free of slashes passes proper names only. -/
theorem advance_proper (tree : Tree) (hposition : ∀ name ∈ position, Proper name)
    (htodo : ∀ name ∈ todo, slash ∉ name) : (advance tree position todo).Proper := by
  induction todo generalizing position with
  | nil => exact hposition
  | cons name todo ih =>
      have hrest : ∀ name ∈ todo, slash ∉ name := fun n hn => htodo n (List.mem_cons_of_mem _ hn)
      rw [advance]
      split
      · exact ih hposition hrest
      · rename_i hname
        split
        · exact ih (fun n hn => hposition n (List.dropLast_subset _ hn)) hrest
        · have hproper : ∀ n ∈ position ++ [name], Proper n := by
            intro n hn
            rcases List.mem_append.mp hn with hn | hn
            · exact hposition n hn
            · rw [List.mem_singleton.mp hn]
              exact ⟨fun hnil => hname (Or.inl hnil), htodo name List.mem_cons_self⟩
          split
          · exact ih hproper hrest
          · split
            · exact hproper
            · trivial
          · refine ⟨fun n hn => ?_, fun n hn => ?_⟩
            · split at hn
              · exact absurd hn List.not_mem_nil
              · exact hposition n hn
            · rcases List.mem_append.mp hn with hn | hn
              · exact slash_not_mem_components hn
              · exact hrest n hn
          · trivial

/-- A walk that arrives without a link ends the resolution. -/
theorem resolve_of_arrived (h : advance tree position todo = .arrived reached) (links : Nat) :
    resolve tree links position todo = some reached := by
  cases links with
  | zero => rw [resolve, h]
  | succ links => rw [resolve, h]

/-- A walk that gets stuck ends the resolution without a result. -/
theorem resolve_of_stuck (h : advance tree position todo = .stuck) (links : Nat) :
    resolve tree links position todo = none := by
  cases links with
  | zero => rw [resolve, h]
  | succ links => rw [resolve, h]

/-- Following a link takes one of the links that are allowed. -/
theorem resolve_of_follow {start : Position} {rest : List Name}
    (h : advance tree position todo = .follow start rest) :
    resolve tree links position todo = some reached ↔
      ∃ fewer, links = fewer + 1 ∧ resolve tree fewer start rest = some reached := by
  cases links with
  | zero =>
      rw [resolve, h]
      simp
  | succ links =>
      rw [resolve, h]
      simp

/-- A resolution from a position with proper names ends at one. -/
theorem resolve_proper (hposition : ∀ name ∈ position, Proper name)
    (htodo : ∀ name ∈ todo, slash ∉ name) (h : resolve tree links position todo = some reached) :
    ∀ name ∈ reached, Proper name := by
  induction links using Nat.strong_induction_on generalizing position todo with
  | _ links ih =>
      have hadvance := advance_proper tree hposition htodo
      cases hstep : advance tree position todo with
      | arrived arrival =>
          rw [resolve_of_arrived hstep] at h
          cases h
          rwa [hstep] at hadvance
      | stuck =>
          rw [resolve_of_stuck hstep] at h
          cases h
      | follow start rest =>
          obtain ⟨fewer, rfl, hfewer⟩ := (resolve_of_follow hstep).mp h
          rw [hstep] at hadvance
          exact ih fewer (Nat.lt_succ_self fewer) hadvance.1 hadvance.2 hfewer

/-- Resolution ends at a position made of proper names. -/
theorem canonical_proper (h : canonical view path = some position) :
    ∀ name ∈ position, Proper name := by
  unfold canonical at h
  split at h
  · cases h
  · refine resolve_proper (fun name hname => ?_) (fun name hname => ?_) h
    · split at hname
      · exact absurd hname List.not_mem_nil
      · exact view.cwd_proper name hname
    · exact slash_not_mem_components hname

/-! ## Containment of canonical paths -/

/-- The text is empty or starts with a slash: a component ends before it. -/
def AtBoundary (text : Bytes) : Prop := text = [] ∨ text.head? = some slash

/-- The text of a position starts with a slash unless it is empty. -/
theorem joined_at_boundary (position : Position) : AtBoundary (joined position) := by
  cases position with
  | nil => exact Or.inl rfl
  | cons name rest => exact Or.inr rfl

/-- Such a text, and another behind it. -/
theorem AtBoundary.append {first second : Bytes} (hfirst : AtBoundary first)
    (hsecond : AtBoundary second) : AtBoundary (first ++ second) := by
  rcases hfirst with rfl | hhead
  · exact hsecond
  · cases first with
    | nil => simp at hhead
    | cons byte rest => exact Or.inr hhead

/-- A name without slashes is what stands before the first boundary. -/
theorem take_while_name {name text : Bytes} (hname : slash ∉ name) (htext : AtBoundary text) :
    (name ++ text).takeWhile (fun byte => byte ≠ slash) = name := by
  induction name with
  | nil =>
      rcases htext with rfl | hhead
      · rfl
      · cases text with
        | nil => rfl
        | cons byte rest =>
            have : byte = slash := by simpa using hhead
            simp [this]
  | cons byte name ih =>
      have hbyte : byte ≠ slash := fun heq => hname (heq ▸ List.mem_cons_self)
      have hrest := ih fun hmem => hname (List.mem_cons_of_mem _ hmem)
      simp only [List.cons_append, List.takeWhile_cons, decide_not, hbyte] at hrest ⊢
      simpa using hrest

/-- The names of a joined path can be read off it, component by component. -/
theorem prefix_of_joined_append {container : Position} {rest : Bytes}
    (hposition : ∀ name ∈ position, Proper name) (hcontainer : ∀ name ∈ container, Proper name)
    (hrest : AtBoundary rest) (h : joined position = joined container ++ rest) :
    container <+: position := by
  induction container generalizing position with
  | nil => exact List.nil_prefix
  | cons name container ih =>
      cases position with
      | nil => simp [joined] at h
      | cons name' position =>
          have hcons : name' ++ joined position = name ++ (joined container ++ rest) := by
            simpa [joined] using h
          have hname : name' = name := by
            rw [← take_while_name (hposition name' List.mem_cons_self).2
                (joined_at_boundary position), hcons,
              take_while_name (hcontainer name List.mem_cons_self).2
                ((joined_at_boundary container).append hrest)]
          subst hname
          have htail := ih (fun n hn => hposition n (List.mem_cons_of_mem _ hn))
            (fun n hn => hcontainer n (List.mem_cons_of_mem _ hn))
            (List.append_cancel_left hcons)
          exact List.cons_prefix_cons.mpr ⟨rfl, htail⟩

/-- A canonical path that has another as a string prefix, with the end or a slash behind it,
names a node at or below the other's. -/
theorem prefix_of_render_prefix {container : Position}
    (hposition : ∀ name ∈ position, Proper name) (hcontainer : ∀ name ∈ container, Proper name)
    (hpre : render container <+: render position)
    (hnext : charAt (render position) (render container).length = none ∨
      charAt (render position) (render container).length = some slash) :
    container <+: position := by
  obtain ⟨rest, hrest⟩ := hpre
  have hboundary : AtBoundary rest := by
    rw [charAt, ← hrest, List.getElem?_append_right (Nat.le_refl _), Nat.sub_self,
      ← List.head?_eq_getElem?] at hnext
    rcases hnext with hnone | hslash
    · exact Or.inl (List.head?_eq_none_iff.mp hnone)
    · exact Or.inr hslash
  cases container with
  | nil => exact List.nil_prefix
  | cons name container =>
      have hname := (hcontainer name List.mem_cons_self).1
      cases position with
      | nil =>
          -- the root's path is a single slash, too short for a path with a name in it
          have hlen := congrArg List.length hrest
          have hpos : 0 < name.length := List.length_pos_iff.mpr hname
          simp only [render, joined, List.length_append, List.flatMap_cons, List.length_cons,
            if_true, if_false, reduceCtorEq, List.length_nil] at hlen
          omega
      | cons name' position =>
          simp only [render, reduceCtorEq, if_false] at hrest
          exact prefix_of_joined_append hposition hcontainer hboundary hrest.symm

/-! ## Longer paths -/

/-- A slash separates the components of what stands before it and of what stands behind it. -/
theorem components_append_slash (first second : Bytes) :
    components (first ++ slash :: second) = components first ++ components second :=
  List.splitOn_append_cons_self first second

/-- A walk along more components: it goes on from where the shorter one arrives, unless that is a
file; it follows the same link, with more to do; or it is stuck like the shorter one. -/
theorem advance_append (tree : Tree) (position : Position) (todo : List Name) {more : List Name}
    (hmore : more ≠ []) :
    (∃ reached, advance tree position todo = .arrived reached ∧
        advance tree position (todo ++ more) = advance tree reached more) ∨
      (∃ file, advance tree position todo = .arrived file ∧ tree.node file = some .file ∧
        advance tree position (todo ++ more) = .stuck) ∨
      (∃ start rest, advance tree position todo = .follow start rest ∧
        advance tree position (todo ++ more) = .follow start (rest ++ more)) ∨
      (advance tree position todo = .stuck ∧ advance tree position (todo ++ more) = .stuck) := by
  induction todo generalizing position with
  | nil => exact Or.inl ⟨position, rfl, rfl⟩
  | cons name todo ih =>
      rw [List.cons_append, advance, advance]
      split
      · exact ih position
      split
      · exact ih position.dropLast
      split
      · exact ih (position ++ [name])
      · rename_i hnode
        rw [if_neg fun hnil => hmore (List.append_eq_nil_iff.mp hnil).2]
        split
        · exact Or.inr (Or.inl ⟨_, rfl, hnode, rfl⟩)
        · exact Or.inr (Or.inr (Or.inr ⟨rfl, rfl⟩))
      · rw [← List.append_assoc]
        exact Or.inr (Or.inr (Or.inl ⟨_, _, rfl, rfl⟩))
      · exact Or.inr (Or.inr (Or.inr ⟨rfl, rfl⟩))

/-- A path that names no file can be continued. -/
theorem resolve_append {final : Position} {more : List Name} (hmore : more ≠ [])
    (h : resolve tree links position todo = some reached)
    (hreached : tree.node reached ≠ some .file)
    (hfinal : advance tree reached more = .arrived final) :
    resolve tree links position (todo ++ more) = some final := by
  induction links using Nat.strong_induction_on generalizing position todo with
  | _ links ih =>
      rcases advance_append tree position todo hmore with
        ⟨middle, hshort, hlong⟩ | ⟨file, hshort, hfile, -⟩ | ⟨start, rest, hshort, hlong⟩ |
          ⟨hshort, -⟩
      · rw [resolve_of_arrived hshort] at h
        cases h
        exact resolve_of_arrived (hlong.trans hfinal) links
      · rw [resolve_of_arrived hshort] at h
        cases h
        exact absurd hfile hreached
      · obtain ⟨fewer, rfl, hfewer⟩ := (resolve_of_follow hshort).mp h
        exact (resolve_of_follow hlong).mpr ⟨fewer, rfl, ih fewer (Nat.lt_succ_self _) hfewer⟩
      · rw [resolve_of_stuck hshort] at h
        cases h

/-- A slash at the end of a path does not change what it names. -/
theorem resolve_of_append_empty (h : resolve tree links position (todo ++ [[]]) = some reached) :
    resolve tree links position todo = some reached := by
  induction links using Nat.strong_induction_on generalizing position todo with
  | _ links ih =>
      rcases advance_append tree position todo (List.cons_ne_nil [] []) with
        ⟨middle, hshort, hlong⟩ | ⟨file, -, -, hlong⟩ | ⟨start, rest, hshort, hlong⟩ |
          ⟨-, hlong⟩
      · rw [resolve_of_arrived hlong] at h
        cases h
        exact resolve_of_arrived hshort links
      · rw [resolve_of_stuck hlong] at h
        cases h
      · obtain ⟨fewer, rfl, hfewer⟩ := (resolve_of_follow hlong).mp h
        exact (resolve_of_follow hshort).mpr ⟨fewer, rfl, ih fewer (Nat.lt_succ_self _) hfewer⟩
      · rw [resolve_of_stuck hlong] at h
        cases h

/-! ## Files below a directory -/

/-- A name that a directory can have an entry for. -/
def EntryName (name : Name) : Prop := Proper name ∧ name ≠ dot ∧ name ≠ dotDot

/-- The names lead from the position to a file, through directories and not through links. -/
def FileBelow (tree : Tree) : Position → List Name → Prop
  | _, [] => False
  | position, name :: names =>
      EntryName name ∧
        if names = [] then tree.node (position ++ [name]) = some .file
        else tree.node (position ++ [name]) = some .directory ∧
          FileBelow tree (position ++ [name]) names

instance (name : Name) : Decidable (EntryName name) :=
  inferInstanceAs (Decidable ((_ ∧ _) ∧ _))

instance decidableFileBelow (tree : Tree) :
    ∀ position names, Decidable (FileBelow tree position names)
  | _, [] => isFalse id
  | position, name :: names =>
      haveI := decidableFileBelow tree (position ++ [name]) names
      inferInstanceAs (Decidable (EntryName name ∧ if names = [] then _ else _ ∧ _))

/-- The relative path made of these names. -/
def relativePath (names : List Name) : Bytes := [slash].intercalate names

/-- At least one name leads to a file below a directory. -/
theorem FileBelow.ne_nil (h : FileBelow tree position names) : names ≠ [] := by
  rintro rfl
  exact h

/-- The names that lead to a file are names of entries. -/
theorem FileBelow.entry_names (h : FileBelow tree position names) :
    ∀ name ∈ names, EntryName name := by
  induction names generalizing position with
  | nil => exact h.elim
  | cons name names ih =>
      intro n hn
      rcases List.mem_cons.mp hn with rfl | hn
      · exact h.1
      · have hrest := h.2
        rw [if_neg (List.ne_nil_of_mem hn)] at hrest
        exact ih hrest.2 n hn

/-- The walk along the names arrives at the file. -/
theorem FileBelow.advance (h : FileBelow tree position names) :
    FileTree.advance tree position names = .arrived (position ++ names) := by
  induction names generalizing position with
  | nil => exact h.elim
  | cons name names ih =>
      obtain ⟨⟨hproper, hdot, hdotDot⟩, hrest⟩ := h
      have hplain : ¬ (name = [] ∨ name = dot) := by
        rintro (hnil | heq)
        · exact hproper.1 hnil
        · exact hdot heq
      rw [FileTree.advance, if_neg hplain, if_neg hdotDot]
      split at hrest
      · rename_i hlast
        rw [hrest, hlast]
        rfl
      · rw [hrest.1]
        show FileTree.advance tree (position ++ [name]) names = _
        rw [ih hrest.2, List.append_assoc, List.singleton_append]

/-- The relative path of a file below a directory has the names as its components. -/
theorem FileBelow.components (h : FileBelow tree position names) :
    components (relativePath names) = names :=
  List.splitOn_intercalate slash (fun name hname => (h.entry_names name hname).1.2) h.ne_nil

/-- Where the walk along a path starts. -/
def startOf (view : View) (path : Bytes) : Position := if isAbsolute path then [] else view.cwd

/-- A path that is not empty is resolved from its start. -/
theorem canonical_of_ne_nil (h : path ≠ []) :
    canonical view path = resolve view.toTree maxLinks (startOf view path) (components path) :=
  if_neg h

/-- Where a path starts is decided by its first byte. -/
theorem start_of_append (view : View) (h : path ≠ []) (rest : Bytes) :
    startOf view (path ++ rest) = startOf view path := by
  unfold startOf isAbsolute
  rw [List.head?_append_of_ne_nil path h]

/-- An empty path leads nowhere. -/
theorem ne_nil_of_canonical (h : canonical view path = some root) : path ≠ [] := by
  rintro rfl
  cases h

/-- A path to a directory, continued by the relative path of a file below it, names that file. -/
theorem canonical_append (h : canonical view path = some root)
    (hroot : view.node root = some .directory) (hbelow : FileBelow view.toTree root names) :
    canonical view (path ++ slash :: relativePath names) = some (root ++ names) := by
  have hpath := ne_nil_of_canonical h
  have hfile : view.node root ≠ some .file := by
    rw [hroot]
    decide
  rw [canonical_of_ne_nil hpath] at h
  rw [canonical_of_ne_nil (List.append_ne_nil_of_left_ne_nil hpath _), start_of_append view hpath,
    components_append_slash, hbelow.components]
  exact resolve_append hbelow.ne_nil h hfile hbelow.advance

/-- The same for a path that ends with a slash. -/
theorem canonical_append_of_slash (h : canonical view path = some root)
    (hslash : path.getLast? = some slash) (hroot : view.node root = some .directory)
    (hbelow : FileBelow view.toTree root names) :
    canonical view (path ++ relativePath names) = some (root ++ names) := by
  have hpath := ne_nil_of_canonical h
  have hfile : view.node root ≠ some .file := by
    rw [hroot]
    decide
  obtain ⟨parent, hparent⟩ := List.getLast?_eq_some_iff.mp hslash
  have hcomponents : components path = components parent ++ [[]] := by
    rw [hparent, components_append_slash]
    rfl
  have hlonger : components (path ++ relativePath names) = components parent ++ names := by
    rw [hparent, List.append_assoc, List.singleton_append, components_append_slash,
      hbelow.components]
  rw [canonical_of_ne_nil hpath, hcomponents] at h
  rw [canonical_of_ne_nil (List.append_ne_nil_of_left_ne_nil hpath _), start_of_append view hpath,
    hlonger]
  exact resolve_append hbelow.ne_nil (resolve_of_append_empty h) hfile hbelow.advance

end FileTree

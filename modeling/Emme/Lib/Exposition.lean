import Mathlib.Data.List.Forall2
import Mathlib.Data.List.ReduceOption
import Emme.Lib.CString

/-!
# The text exposition format of metrics

A text is a sequence of lines: comments, of which `HELP` and `TYPE` have a form of their own, and
samples, which are a name, labels in braces and a number. What a number looks like is a parameter. A
text can be read only if each of its lines can (`reads_joined`).
-/

namespace Exposition

open CString

/-! ## Lines -/

/-- The byte that ends a line. -/
def lineEnd : UInt8 := 10

/-- Lines with their ends. -/
def joined (lines : List Bytes) : Bytes := lines.flatMap (· ++ [lineEnd])

/-- No lines make an empty text. -/
@[simp] theorem joined_nil : joined [] = [] := rfl

/-- A line, its end, and the lines behind it. -/
@[simp] theorem joined_cons (line : Bytes) (lines : List Bytes) :
    joined (line :: lines) = line ++ lineEnd :: joined lines := by
  rw [joined, List.flatMap_cons, List.append_assoc]
  rfl

/-- Lines are joined part by part. -/
@[simp] theorem joined_append (lines lines' : List Bytes) :
    joined (lines ++ lines') = joined lines ++ joined lines' := List.flatMap_append

variable {line rest : Bytes} {lines : List Bytes}

/-- The first line ends at the first line end. -/
theorem append_line_end_inj {line' rest' : Bytes} (h : lineEnd ∉ line) (h' : lineEnd ∉ line')
    (heq : line ++ lineEnd :: rest = line' ++ lineEnd :: rest') : line = line' ∧ rest = rest' := by
  rcases List.append_eq_append_iff.mp heq with ⟨more, rfl, hmore⟩ | ⟨more, rfl, hmore⟩
  · cases more with
    | nil => simpa using hmore
    | cons b more => simp [← (List.cons.inj hmore).1] at h'
  · cases more with
    | nil => simpa using hmore.symm
    | cons b more => simp [← (List.cons.inj hmore).1] at h

/-- A text determines its lines. -/
theorem joined_inj {lines' : List Bytes} (h : ∀ line ∈ lines, lineEnd ∉ line)
    (h' : ∀ line ∈ lines', lineEnd ∉ line) (heq : joined lines = joined lines') :
    lines = lines' := by
  induction lines generalizing lines' with
  | nil =>
      cases lines' with
      | nil => rfl
      | cons line' lines' =>
          rw [joined_cons] at heq
          exact absurd heq.symm (List.append_ne_nil_of_right_ne_nil _ (List.cons_ne_nil _ _))
  | cons line lines ih =>
      cases lines' with
      | nil =>
          rw [joined_cons] at heq
          exact absurd heq (List.append_ne_nil_of_right_ne_nil _ (List.cons_ne_nil _ _))
      | cons line' lines' =>
          rw [List.forall_mem_cons] at h h'
          rw [joined_cons, joined_cons] at heq
          obtain ⟨rfl, hrest⟩ := append_line_end_inj h.1 h'.1 heq
          rw [ih h.2 h'.2 hrest]

/-! ## The grammar of a line -/

/-- Bytes that a name may start with. -/
def nameStart (b : UInt8) : Bool :=
  (65 ≤ b && b ≤ 90) || (97 ≤ b && b ≤ 122) || b = 95 || b = 58

/-- Bytes that a name may have. -/
def nameByte (b : UInt8) : Bool := nameStart b || (48 ≤ b && b ≤ 57)

/-- The text is the name of a metric. -/
def isName : Bytes → Bool
  | [] => false
  | b :: rest => nameStart b && rest.all nameByte

/-- The text is the name of a label, which has no colon. -/
def isLabelName (text : Bytes) : Bool := isName text && text.all (· ≠ 58)

/-- The types a metric can be declared to have. -/
inductive Kind where
  | counter
  | gauge
  | histogram
  | summary
  | untyped
  deriving DecidableEq, Repr

/-- The word for the kind in a `# TYPE` line. -/
def Kind.text : Kind → Bytes
  | .counter => ascii "counter"
  | .gauge => ascii "gauge"
  | .histogram => ascii "histogram"
  | .summary => ascii "summary"
  | .untyped => ascii "untyped"

/-- What stands between the quotes of a label, and the text it denotes. -/
inductive LabelText : Bytes → Bytes → Prop where
  | nil : LabelText [] []
  | plain (b : UInt8) (body text : Bytes) :
      b ≠ 34 → b ≠ 92 → b ≠ lineEnd → LabelText body text → LabelText (b :: body) (b :: text)
  | backslash (body text : Bytes) :
      LabelText body text → LabelText (92 :: 92 :: body) (92 :: text)
  | quote (body text : Bytes) : LabelText body text → LabelText (92 :: 34 :: body) (34 :: text)
  | newline (body text : Bytes) :
      LabelText body text → LabelText (92 :: 110 :: body) (lineEnd :: text)

/-- What stands between the braces, and the labels it denotes. -/
inductive Labels : Bytes → List (Bytes × Bytes) → Prop where
  | nil : Labels [] []
  | last (name body text : Bytes) :
      isLabelName name = true → LabelText body text →
      Labels (name ++ 61 :: 34 :: body ++ [34]) [(name, text)]
  | cons (name body text rest : Bytes) (labels : List (Bytes × Bytes)) :
      isLabelName name = true → LabelText body text → Labels rest labels →
      Labels (name ++ 61 :: 34 :: body ++ 34 :: 44 :: rest) ((name, text) :: labels)

/-- A name with labels and a value. -/
structure Sample (V : Type) where
  name : Bytes
  labels : List (Bytes × Bytes)
  value : V

section Reading

variable {V : Type} (Number : Bytes → V → Prop)

/-- A line, and the sample it holds. -/
inductive Line : Bytes → Option (Sample V) → Prop where
  | blank : Line [] none
  | comment (text : Bytes) :
      ¬ ascii " HELP" <+: text → ¬ ascii " TYPE" <+: text → Line (35 :: text) none
  | help (name text : Bytes) :
      isName name = true → Line (ascii "# HELP " ++ name ++ 32 :: text) none
  | type (name : Bytes) (kind : Kind) :
      isName name = true → Line (ascii "# TYPE " ++ name ++ 32 :: kind.text) none
  | sample (name text : Bytes) (value : V) :
      isName name = true → Number text value →
      Line (name ++ 32 :: text) (some ⟨name, [], value⟩)
  | labelled (name body text : Bytes) (labels : List (Bytes × Bytes)) (value : V) :
      isName name = true → Labels body labels → Number text value →
      Line (name ++ 123 :: body ++ 125 :: 32 :: text) (some ⟨name, labels, value⟩)

/-- The text is read without an error, with these samples. -/
def Reads (text : Bytes) (samples : List (Sample V)) : Prop :=
  ∃ (lines : List Bytes) (found : List (Option (Sample V))),
    text = joined lines ∧ (∀ line ∈ lines, lineEnd ∉ line) ∧
      List.Forall₂ (Line Number) lines found ∧ samples = found.reduceOption

variable {Number}

/-- A text is read line by line. -/
theorem reads_joined (h : ∀ line ∈ lines, lineEnd ∉ line) (samples : List (Sample V)) :
    Reads Number (joined lines) samples ↔
      ∃ found, List.Forall₂ (Line Number) lines found ∧ samples = found.reduceOption := by
  constructor
  · rintro ⟨lines', found, heq, hends, hlines, hsamples⟩
    obtain rfl := joined_inj h hends heq
    exact ⟨found, hlines, hsamples⟩
  · rintro ⟨found, hlines, hsamples⟩
    exact ⟨lines, found, rfl, h, hlines, hsamples⟩

/-- One line that cannot be read spoils the text. -/
theorem not_reads_of_line (h : ∀ line ∈ lines, lineEnd ∉ line) (hline : line ∈ lines)
    (hbad : ∀ found, ¬ Line Number line found) (samples : List (Sample V)) :
    ¬ Reads Number (joined lines) samples := by
  rw [reads_joined h]
  rintro ⟨found, hlines, -⟩
  obtain ⟨i, hi⟩ := List.mem_iff_getElem?.mp hline
  have hlt := (List.getElem?_eq_some_iff.mp hi).1
  have hfound := hlines.get hlt (hlines.length_eq ▸ hlt)
  rw [List.getElem?_eq_getElem hlt] at hi
  rw [List.get_eq_getElem, Option.some.inj hi] at hfound
  exact hbad _ hfound

/-- A text that starts with a name starts with a byte of one. -/
theorem name_start_of_name {name : Bytes} {b : UInt8} (h : isName name = true)
    (heq : b :: line = name ++ rest) : nameStart b = true := by
  cases name with
  | nil => exact absurd h Bool.false_ne_true
  | cons c name =>
      rw [(List.cons.inj heq).1]
      exact (Bool.and_eq_true _ _ ▸ h).1

/-- A line starts with a number sign or with a name. -/
theorem Line.head {b : UInt8} {found : Option (Sample V)} (h : Line Number (b :: line) found) :
    b = 35 ∨ nameStart b = true := by
  generalize heq : b :: line = whole at h
  cases h with
  | blank => cases heq
  | comment text => exact .inl (List.cons.inj heq).1
  | help name text => exact .inl (List.cons.inj heq).1
  | type name kind => exact .inl (List.cons.inj heq).1
  | sample name text value hname => exact .inr (name_start_of_name hname heq)
  | labelled name body text labels value hname =>
      rw [List.append_assoc] at heq
      exact .inr (name_start_of_name hname heq)

/-- A `TYPE` comment has a space between its two words. -/
theorem Line.type_spaced {found : Option (Sample V)}
    (h : Line Number (ascii "# TYPE " ++ rest) found) : 32 ∈ rest := by
  have hfront : ascii "# TYPE " ++ rest = 35 :: (ascii " TYPE " ++ rest) := rfl
  generalize heq : ascii "# TYPE " ++ rest = whole at h
  cases h with
  | blank => cases heq
  | comment text _ htype =>
      refine absurd ?_ htype
      rw [← (List.cons.inj heq).2]
      exact ⟨32 :: rest, rfl⟩
  | help name text => cases (List.cons.inj (List.cons.inj (List.cons.inj heq).2).2).1
  | type name kind =>
      rw [List.append_assoc] at heq
      rw [List.append_cancel_left heq]
      exact List.mem_append_right _ List.mem_cons_self
  | sample name text value hname =>
      exact absurd (name_start_of_name hname (hfront.symm.trans heq)) (by decide)
  | labelled name body text labels value hname =>
      rw [List.append_assoc] at heq
      exact absurd (name_start_of_name hname (hfront.symm.trans heq)) (by decide)

end Reading

end Exposition

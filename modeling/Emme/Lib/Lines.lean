import Emme.Lib.CString

/-!
# Texts made of lines

A head is a first line, further lines that are not empty, and an empty line; every line ends in
CR LF. The empty line is found by looking for CR LF CR LF (`exists_head`).
-/

namespace Lines

open CString

/-- The first empty line together with the end of the line before it. -/
def blankLine : Bytes := crlf ++ crlf

/-- Lines with their ends. -/
def joined (lines : List Bytes) : Bytes := lines.flatMap (· ++ crlf)

/-- No lines make an empty text. -/
@[simp] theorem joined_nil : joined [] = [] := rfl

/-- A line, its end, and the lines behind it. -/
@[simp] theorem joined_cons (line : Bytes) (lines : List Bytes) :
    joined (line :: lines) = line ++ crlf ++ joined lines := rfl

/-- Lines are joined part by part. -/
@[simp] theorem joined_append (lines lines' : List Bytes) :
    joined (lines ++ lines') = joined lines ++ joined lines' := List.flatMap_append

/-- A text has at least as many bytes as lines. -/
theorem length_le_joined (lines : List Bytes) : lines.length ≤ (joined lines).length := by
  induction lines with
  | nil => exact Nat.le_refl 0
  | cons line lines ih =>
      simp only [joined_cons, crlf, List.length_append, List.length_cons, List.length_nil]
      omega

/-- A text that starts with a head: its first line, the lines up to the first empty one, and what
follows. -/
structure Head (text first : Bytes) (lines : List Bytes) (rest : Bytes) : Prop where
  text_eq : text = first ++ crlf ++ joined lines ++ crlf ++ rest
  first_line : ¬ crlf <:+: first
  line : ∀ line ∈ lines, line ≠ [] ∧ ¬ crlf <:+: line

/-- A text with a line end in it starts with a line. -/
theorem exists_line {text : Bytes} (h : crlf <:+: text) :
    ∃ line more, text = line ++ crlf ++ more ∧ ¬ crlf <:+: line := by
  induction text with
  | nil => exact absurd (List.infix_nil.mp h) (by decide)
  | cons b rest ih =>
      by_cases hpre : crlf <+: b :: rest
      · obtain ⟨more, hmore⟩ := hpre
        exact ⟨[], more, hmore.symm, by decide⟩
      · have hrest := (List.infix_cons_iff.mp h).resolve_left hpre
        obtain ⟨line, more, rfl, hline⟩ := ih hrest
        refine ⟨b :: line, more, rfl, fun hin => ?_⟩
        rcases List.infix_cons_iff.mp hin with hshort | hin
        · exact hpre (hshort.trans ⟨crlf ++ more, by simp⟩)
        · exact hline hin

/-- Where the first empty line behind a line is: right there, or among the lines that follow. -/
theorem find_blank_line {line : Bytes} (h : ¬ crlf <:+: line) (more : Bytes) :
    findSub blankLine (line ++ crlf ++ more) =
      if crlf <+: more then some line.length
      else (findSub blankLine more).map (· + (line.length + 2)) := by
  induction line with
  | nil =>
      show findSub blankLine (13 :: 10 :: more) = _
      have hpre : blankLine <+: 13 :: 10 :: more ↔ crlf <+: more := by
        simp [blankLine, crlf]
      have hnext : ¬ blankLine <+: 10 :: more := by
        intro hin
        exact absurd (List.cons_prefix_cons.mp hin).1 (by decide)
      rw [findSub, findSub, if_neg hnext]
      simp only [hpre]
      split
      · rfl
      · rw [Option.map_map]
        rfl
  | cons b line ih =>
      have hline : ¬ crlf <:+: line := fun hin => h (List.infix_cons hin)
      have hpre : ¬ blankLine <+: b :: (line ++ crlf ++ more) :=
        fun hin => not_crlf_before h more (List.IsPrefix.trans ⟨crlf, rfl⟩ hin)
      show findSub blankLine (b :: (line ++ crlf ++ more)) = _
      rw [findSub, if_neg hpre, ih hline]
      split
      · rfl
      · rw [Option.map_map]
        rfl

/-- Where an empty line is found, a head ends. -/
theorem exists_head {text : Bytes} {i : Nat} (h : findSub blankLine text = some i) :
    ∃ first lines rest, Head text first lines rest ∧
      (first ++ crlf ++ joined lines).length = i + 2 := by
  induction hlen : text.length using Nat.strongRecOn generalizing text i with
  | _ n ih =>
      have hin : crlf <:+: text := by
        have hblank := (find_sub_eq_some h).isInfix.trans (List.drop_suffix i text).isInfix
        exact List.IsInfix.trans ⟨[], crlf, rfl⟩ hblank
      obtain ⟨line, more, rfl, hline⟩ := exists_line hin
      rw [find_blank_line hline] at h
      split at h
      · rename_i hmore
        obtain ⟨rest, rfl⟩ := hmore
        cases h
        refine ⟨line, [], rest, ⟨by simp, hline, by simp⟩, ?_⟩
        simp [crlf]
      · rename_i hmore
        obtain ⟨j, hj, rfl⟩ := Option.map_eq_some_iff.mp h
        have hshort : more.length < n := by
          rw [← hlen, List.length_append, List.length_append]
          exact Nat.lt_add_of_pos_left (Nat.add_pos_right _ (by decide))
        obtain ⟨first, lines, rest, hhead, hj⟩ := ih _ hshort hj rfl
        have hfirst : first ≠ [] := by
          rintro rfl
          exact hmore ⟨joined lines ++ crlf ++ rest, by rw [hhead.text_eq]; simp⟩
        refine ⟨line, first :: lines, rest, ⟨?_, hline, ?_⟩, ?_⟩
        · rw [hhead.text_eq]
          simp
        · exact List.forall_mem_cons.mpr ⟨⟨hfirst, hhead.first_line⟩, hhead.line⟩
        · rw [joined_cons, List.length_append, hj, List.length_append]
          show line.length + 2 + (j + 2) = j + (line.length + 2) + 2
          omega

end Lines

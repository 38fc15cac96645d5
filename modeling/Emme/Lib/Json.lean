import Emme.Lib.CString

/-!
# JSON texts

The grammar of JSON over the bytes of a text in UTF-8, as a relation between a text and the value it
denotes. A string denotes the bytes of its characters; an escaped surrogate without its partner
denotes nothing.
-/

namespace Json

open CString

/-! ## Characters -/

/-- A character that stands for itself in a string. -/
def Unescaped (c : Char) : Prop := 32 ≤ c.toNat ∧ c.toNat ≠ 34 ∧ c.toNat ≠ 92

/-- Characters that stand for themselves. -/
def Plain (text : Bytes) : Prop :=
  ∃ chars : List Char, (∀ c ∈ chars, Unescaped c) ∧ text = chars.flatMap String.utf8EncodeChar

/-- The byte that a backslash before a byte stands for. -/
def simpleEscape (b : UInt8) : Option UInt8 :=
  if b = 34 ∨ b = 92 ∨ b = 47 then some b
  else if b = 98 then some 8
  else if b = 102 then some 12
  else if b = 110 then some 10
  else if b = 114 then some 13
  else if b = 116 then some 9
  else none

/-- The value of a hexadecimal digit. -/
def hexDigit (b : UInt8) : Option Nat :=
  if 48 ≤ b ∧ b ≤ 57 then some (b.toNat - 48)
  else if 65 ≤ b ∧ b ≤ 70 then some (b.toNat - 55)
  else if 97 ≤ b ∧ b ≤ 102 then some (b.toNat - 87)
  else none

/-- Four hexadecimal digits and the number they stand for. -/
inductive Hex4 : Bytes → Nat → Prop where
  | digits (a b c d : UInt8) (w x y z : Nat) :
      hexDigit a = some w → hexDigit b = some x → hexDigit c = some y → hexDigit d = some z →
      Hex4 [a, b, c, d] (((w * 16 + x) * 16 + y) * 16 + z)

/-- One character of a string body: the bytes that encode it and the bytes it denotes. -/
inductive Item : Bytes → Bytes → Prop where
  | plain (c : Char) : Unescaped c → Item (String.utf8EncodeChar c) (String.utf8EncodeChar c)
  | escape (b d : UInt8) : simpleEscape b = some d → Item [92, b] [d]
  | unicode (digits : Bytes) (code : Nat) :
      Hex4 digits code → code.isValidChar →
      Item (92 :: 117 :: digits) (String.utf8EncodeChar (Char.ofNat code))
  | pair (first second : Bytes) (high low : Nat) :
      Hex4 first high → Hex4 second low → 0xD800 ≤ high → high < 0xDC00 → 0xDC00 ≤ low →
      low < 0xE000 →
      Item (92 :: 117 :: first ++ 92 :: 117 :: second)
        (String.utf8EncodeChar
          (Char.ofNat (0x10000 + (high - 0xD800) * 0x400 + (low - 0xDC00))))

/-- A string body and the bytes it denotes. -/
inductive Chars : Bytes → Bytes → Prop where
  | nil : Chars [] []
  | cons (item text rest more : Bytes) :
      Item item text → Chars rest more → Chars (item ++ rest) (text ++ more)

/-! ## Values -/

/-- White space. -/
def Space (text : Bytes) : Prop := ∀ b ∈ text, b ∈ [32, 9, 10, 13]

/-- Decimal digits, at least one. -/
def Digits (text : Bytes) : Prop := text ≠ [] ∧ ∀ b ∈ text, 48 ≤ b ∧ b ≤ 57

/-- A number: sign, integer part, fraction and exponent. -/
def Number (text : Bytes) : Prop :=
  ∃ sign whole fraction exponent, text = sign ++ whole ++ fraction ++ exponent ∧
    (sign = [] ∨ sign = [45]) ∧
    (whole = [48] ∨ (Digits whole ∧ whole.head? ≠ some 48)) ∧
    (fraction = [] ∨ ∃ digits, Digits digits ∧ fraction = 46 :: digits) ∧
    (exponent = [] ∨ ∃ letter sign digits, (letter = 69 ∨ letter = 101) ∧
      (sign = [] ∨ sign = [43] ∨ sign = [45]) ∧ Digits digits ∧
      exponent = letter :: (sign ++ digits))

/-- What a JSON text denotes. -/
inductive Value where
  | null
  | bool (value : Bool)
  | number (text : Bytes)
  | string (text : Bytes)
  | array (values : List Value)
  | object (members : List (Bytes × Value))

mutual
/-- `Denotes text value`: the text, without white space around it, denotes the value. -/
inductive Denotes : Bytes → Value → Prop where
  | null : Denotes (ascii "null") .null
  | yes : Denotes (ascii "true") (.bool true)
  | no : Denotes (ascii "false") (.bool false)
  | number (text) : Number text → Denotes text (.number text)
  | string (body text) : Chars body text → Denotes (34 :: body ++ [34]) (.string text)
  | emptyArray (space) : Space space → Denotes (91 :: space ++ [93]) (.array [])
  | array (body values) : Elements body values → Denotes (91 :: body ++ [93]) (.array values)
  | emptyObject (space) : Space space → Denotes (123 :: space ++ [125]) (.object [])
  | object (body members) : Members body members → Denotes (123 :: body ++ [125]) (.object members)

/-- The values of an array, with commas between them. -/
inductive Elements : Bytes → List Value → Prop where
  | last (before text after value) :
      Space before → Denotes text value → Space after →
      Elements (before ++ text ++ after) [value]
  | cons (before text after value rest values) :
      Space before → Denotes text value → Space after → Elements rest values →
      Elements (before ++ text ++ after ++ 44 :: rest) (value :: values)

/-- The members of an object, with commas between them. -/
inductive Members : Bytes → List (Bytes × Value) → Prop where
  | last (before key name between colon text after value) :
      Space before → Chars key name → Space between → Space colon → Denotes text value →
      Space after →
      Members (before ++ 34 :: key ++ 34 :: between ++ 58 :: colon ++ text ++ after)
        [(name, value)]
  | cons (before key name between colon text after value rest members) :
      Space before → Chars key name → Space between → Space colon → Denotes text value →
      Space after → Members rest members →
      Members (before ++ 34 :: key ++ 34 :: between ++ 58 :: colon ++ text ++ after ++ 44 :: rest)
        ((name, value) :: members)
end

/-- A JSON text: a value with white space around it. -/
def IsText (text : Bytes) (value : Value) : Prop :=
  ∃ before body after, text = before ++ body ++ after ∧ Space before ∧ Denotes body value ∧
    Space after

/-! ## String bodies -/

/-- A character has one to four bytes. -/
theorem utf8_length (c : Char) :
    0 < (String.utf8EncodeChar c).length ∧ (String.utf8EncodeChar c).length ≤ 4 := by
  rw [String.length_utf8EncodeChar]
  exact ⟨c.utf8Size_pos, c.utf8Size_le_four⟩

variable {b : UInt8} {text more body : Bytes}

/-- The bytes of a character that stands for itself: no control character, quote or backslash is
among them, since all bytes of a longer encoding are beyond ASCII. -/
theorem Unescaped.bytes {c : Char} (h : Unescaped c) (hb : b ∈ String.utf8EncodeChar c) :
    32 ≤ b ∧ b ≠ 34 ∧ b ≠ 92 := by
  obtain ⟨hcontrol, hquote, hbackslash⟩ := h
  have hnat : c.val.toNat = c.toNat := rfl
  have hbyte {n : Nat} (hn : n < 256) (hlow : 32 ≤ n) (h34 : n ≠ 34) (h92 : n ≠ 92) :
      32 ≤ UInt8.ofNat n ∧ UInt8.ofNat n ≠ 34 ∧ UInt8.ofNat n ≠ 92 := by
    have hto : (UInt8.ofNat n).toNat = n := UInt8.toNat_ofNat_of_lt' hn
    refine ⟨?_, ?_, ?_⟩
    · rw [UInt8.le_iff_toNat_le, hto]
      exact hlow
    · intro heq
      exact h34 (hto.symm.trans (congrArg UInt8.toNat heq))
    · intro heq
      exact h92 (hto.symm.trans (congrArg UInt8.toNat heq))
  simp only [String.utf8EncodeChar, hnat] at hb
  split_ifs at hb <;> simp only [List.mem_cons, List.not_mem_nil, or_false] at hb
  · subst hb
    exact hbyte (by omega) hcontrol hquote hbackslash
  · rcases hb with rfl | rfl <;> exact hbyte (by omega) (by omega) (by omega) (by omega)
  · rcases hb with rfl | rfl | rfl <;> exact hbyte (by omega) (by omega) (by omega) (by omega)
  · rcases hb with rfl | rfl | rfl | rfl <;>
      exact hbyte (by omega) (by omega) (by omega) (by omega)

/-- No byte of plain characters is a control character, a quote or a backslash. -/
theorem Plain.bytes (h : Plain text) (hb : b ∈ text) : 32 ≤ b ∧ b ≠ 34 ∧ b ≠ 92 := by
  obtain ⟨chars, hchars, rfl⟩ := h
  obtain ⟨c, hc, hb⟩ := List.mem_flatMap.mp hb
  exact (hchars c hc).bytes hb

/-- Plain characters, and others behind them. -/
theorem Plain.append (h : Plain text) (h' : Plain more) : Plain (text ++ more) := by
  obtain ⟨chars, hchars, rfl⟩ := h
  obtain ⟨chars', hchars', rfl⟩ := h'
  refine ⟨chars ++ chars', fun c hc => ?_, List.flatMap_append.symm⟩
  rcases List.mem_append.mp hc with hc | hc
  · exact hchars c hc
  · exact hchars' c hc

/-- A text that stands for itself. -/
theorem Plain.chars (h : Plain text) : Chars text text := by
  obtain ⟨chars, hchars, rfl⟩ := h
  induction chars with
  | nil => exact .nil
  | cons c chars ih =>
      obtain ⟨hc, hchars⟩ := List.forall_mem_cons.mp hchars
      exact .cons _ _ _ _ (.plain c hc) (ih hchars)

/-- A byte below 128 is the character with its number. -/
theorem utf8_ascii (h : b < 128) :
    (Char.ofNat b.toNat).toNat = b.toNat ∧ String.utf8EncodeChar (Char.ofNat b.toNat) = [b] := by
  have hlt : b.toNat < 128 := UInt8.lt_iff_toNat_lt.mp h
  have hvalid : b.toNat.isValidChar := Or.inl (by omega)
  have hnat : (Char.ofNat b.toNat).toNat = b.toNat := by
    rw [Char.ofNat, dif_pos hvalid]
    rfl
  refine ⟨hnat, ?_⟩
  have hval : (Char.ofNat b.toNat).val.toNat = b.toNat := hnat
  simp only [String.utf8EncodeChar, hval]
  rw [if_pos (by omega), UInt8.ofNat_toNat]

/-- A printable ASCII character other than the quote and the backslash. -/
def printable (b : UInt8) : Bool := 32 ≤ b ∧ b < 128 ∧ b ≠ 34 ∧ b ≠ 92

/-- Printable ASCII without quotes and backslashes stands for itself. -/
theorem plain_of_ascii (h : text.all printable = true) : Plain text := by
  induction text with
  | nil => exact ⟨[], by simp, rfl⟩
  | cons b text ih =>
      rw [List.all_cons, Bool.and_eq_true] at h
      obtain ⟨hb, htext⟩ := h
      obtain ⟨hlow, hhigh, hquote, hbackslash⟩ := of_decide_eq_true hb
      obtain ⟨hnat, hutf8⟩ := utf8_ascii hhigh
      have hne {n : UInt8} (hn : b ≠ n) : b.toNat ≠ n.toNat := fun h => hn (UInt8.toNat_inj.mp h)
      have hchar : Unescaped (Char.ofNat b.toNat) := by
        refine ⟨?_, ?_, ?_⟩ <;> rw [hnat]
        · exact UInt8.le_iff_toNat_le.mp hlow
        · exact hne hquote
        · exact hne hbackslash
      have hfirst : Plain [b] := ⟨[Char.ofNat b.toNat], by simpa using hchar, by simp [hutf8]⟩
      exact hfirst.append (ih htext)

/-- The digits are four, and none is a quote. -/
theorem Hex4.mem {digits : Bytes} {code : Nat} (h : Hex4 digits code) :
    digits.length = 4 ∧ 34 ∉ digits := by
  cases h with
  | digits a b c d w x y z ha hb hc hd =>
      refine ⟨rfl, fun hmem => ?_⟩
      simp only [List.mem_cons, List.not_mem_nil, or_false] at hmem
      have hquote : hexDigit 34 = none := by decide
      rcases hmem with rfl | rfl | rfl | rfl
      · cases hquote.symm.trans ha
      · cases hquote.symm.trans hb
      · cases hquote.symm.trans hc
      · cases hquote.symm.trans hd

/-- A character stands for itself, or begins with a backslash and is longer than what it
denotes. -/
theorem Item.plain_or_escaped {item : Bytes} (h : Item item text) :
    (∃ c, Unescaped c ∧ item = String.utf8EncodeChar c ∧ text = item) ∨
      (92 ∈ item ∧ text.length < item.length) := by
  cases h with
  | plain c hc => exact Or.inl ⟨c, hc, rfl, rfl⟩
  | escape b d hb => exact Or.inr ⟨List.mem_cons_self, Nat.lt_succ_self 1⟩
  | unicode digits code hdigits hcode =>
      refine Or.inr ⟨List.mem_cons_self, ?_⟩
      have hle := (utf8_length (Char.ofNat code)).2
      simp only [List.length_cons, hdigits.mem.1]
      omega
  | pair first second high low hfirst hsecond h1 h2 h3 h4 =>
      refine Or.inr ⟨List.mem_cons_self, ?_⟩
      have hle := (utf8_length
        (Char.ofNat (0x10000 + (high - 0xD800) * 0x400 + (low - 0xDC00)))).2
      simp only [List.cons_append, List.length_cons, List.length_append, hfirst.mem.1,
        hsecond.mem.1]
      omega

/-- A string is not longer than its body. -/
theorem Chars.length_le (h : Chars body text) : text.length ≤ body.length := by
  induction h with
  | nil => exact Nat.le_refl 0
  | cons item text rest more hitem hrest ih =>
      rw [List.length_append, List.length_append]
      rcases hitem.plain_or_escaped with ⟨c, -, -, rfl⟩ | ⟨-, hlt⟩ <;> omega

/-- A body in which nothing is escaped is what it denotes. -/
theorem Chars.plain_of_no_backslash (h : Chars body text) (hno : 92 ∉ body) :
    text = body ∧ Plain text := by
  induction h with
  | nil => exact ⟨rfl, [], by simp, rfl⟩
  | cons item text rest more hitem hrest ih =>
      rw [List.mem_append, not_or] at hno
      obtain ⟨rfl, hplain⟩ := ih hno.2
      rcases hitem.plain_or_escaped with ⟨c, hc, rfl, rfl⟩ | ⟨hbackslash, -⟩
      · exact ⟨rfl, Plain.append ⟨[c], by simpa using hc, by simp⟩ hplain⟩
      · exact absurd hbackslash hno.1

/-- A body that is no longer than what it denotes has nothing escaped. -/
theorem Chars.plain_of_length (h : Chars body text) (hlength : body.length ≤ text.length) :
    text = body ∧ Plain text := by
  induction h with
  | nil => exact ⟨rfl, [], by simp, rfl⟩
  | cons item text rest more hitem hrest ih =>
      rw [List.length_append, List.length_append] at hlength
      have hle := hrest.length_le
      rcases hitem.plain_or_escaped with ⟨c, hc, rfl, rfl⟩ | ⟨-, hlt⟩
      · obtain ⟨rfl, hplain⟩ := ih (by omega)
        exact ⟨rfl, Plain.append ⟨[c], by simpa using hc, by simp⟩ hplain⟩
      · omega

/-- In one character a quote only follows a backslash. -/
theorem Item.quote_escaped {item before : Bytes} (h : Item item text)
    (hquote : item = before ++ 34 :: more) : before = [92] := by
  have hmem : 34 ∈ item := hquote ▸ List.mem_append_right _ List.mem_cons_self
  cases h with
  | plain c hc => exact absurd rfl (hc.bytes hmem).2.1
  | escape b d hb =>
      cases before with
      | nil => exact absurd (List.cons.inj hquote).1 (by decide)
      | cons first before =>
          obtain ⟨rfl, hrest⟩ := List.cons.inj hquote
          cases before with
          | nil => rfl
          | cons second before =>
              cases (List.append_eq_nil_iff.mp (List.cons.inj hrest).2.symm).2
  | unicode digits code hdigits hcode =>
      simp only [List.mem_cons, hdigits.mem.2, or_false] at hmem
      exact absurd hmem (by decide)
  | pair first second high low hfirst hsecond h1 h2 h3 h4 =>
      simp only [List.cons_append, List.mem_cons, List.mem_append, hfirst.mem.2, hsecond.mem.2,
        or_false, false_or] at hmem
      exact absurd hmem (by decide)

/-- A quote in a string body has a backslash before it. -/
theorem Chars.quote_escaped {before : Bytes} (h : Chars body text)
    (hquote : body = before ++ 34 :: more) : ∃ front, before = front ++ [92] := by
  induction h generalizing before with
  | nil => cases (List.append_eq_nil_iff.mp hquote.symm).2
  | cons item text rest others hitem hrest ih =>
      rcases List.append_eq_append_iff.mp hquote with
        ⟨middle, rfl, hmiddle⟩ | ⟨middle, hitem', hmiddle⟩
      · -- the quote is behind the first character
        obtain ⟨front, rfl⟩ := ih hmiddle
        exact ⟨item ++ front, (List.append_assoc _ _ _).symm⟩
      · cases middle with
        | nil =>
            obtain ⟨front, hfront⟩ := @ih [] hmiddle.symm
            cases (List.append_eq_nil_iff.mp hfront.symm).2
        | cons b middle =>
            obtain ⟨rfl, -⟩ := List.cons.inj hmiddle
            exact ⟨[], hitem.quote_escaped hitem'⟩

/-! ## Strings in objects -/

/-- A text that denotes a string is a body between quotes. -/
theorem Denotes.string_body {decoded : Bytes} {value : Value} (h : Denotes text value)
    (hvalue : value = .string decoded) :
    ∃ body, text = 34 :: body ++ [34] ∧ Chars body decoded := by
  cases h with
  | string body text hbody =>
      cases hvalue
      exact ⟨body, rfl, hbody⟩
  | _ => cases hvalue

/-- A string that is the value of a member stands in the object between quotes. -/
theorem Members.string_mem {name decoded : Bytes} : ∀ {text : Bytes}
    {members : List (Bytes × Value)}, Members text members → (name, .string decoded) ∈ members →
    ∃ front body back, text = front ++ 34 :: (body ++ 34 :: back) ∧ Chars body decoded
  | _, _, .last before key name' between colon text after value _ _ _ _ hvalue _, hmem => by
      obtain ⟨-, rfl⟩ := Prod.mk.inj (List.mem_singleton.mp hmem)
      obtain ⟨body, rfl, hbody⟩ := hvalue.string_body rfl
      exact ⟨before ++ 34 :: key ++ 34 :: between ++ 58 :: colon, body, after, by simp, hbody⟩
  | _, _, .cons before key name' between colon text after value rest members _ _ _ _ hvalue _
      hrest, hmem => by
      rcases List.mem_cons.mp hmem with heq | hmem
      · obtain ⟨-, rfl⟩ := Prod.mk.inj heq
        obtain ⟨body, rfl, hbody⟩ := hvalue.string_body rfl
        exact ⟨before ++ 34 :: key ++ 34 :: between ++ 58 :: colon, body, after ++ 44 :: rest,
          by simp, hbody⟩
      · obtain ⟨front, body, back, rfl, hbody⟩ := Members.string_mem hrest hmem
        exact ⟨before ++ 34 :: key ++ 34 :: between ++ 58 :: colon ++ text ++ after ++ 44 :: front,
          body, back, by simp, hbody⟩

/-- A string that is a member of an object stands in the text between quotes. -/
theorem IsText.string_mem {name decoded : Bytes} {members : List (Bytes × Value)}
    (h : IsText text (.object members)) (hmem : (name, .string decoded) ∈ members) :
    ∃ front body back, text = front ++ 34 :: (body ++ 34 :: back) ∧ Chars body decoded := by
  obtain ⟨before, object, after, rfl, -, hobject, -⟩ := h
  cases hobject with
  | emptyObject space hspace => cases hmem
  | object text members hmembers =>
      obtain ⟨front, body, back, rfl, hbody⟩ := hmembers.string_mem hmem
      exact ⟨before ++ 123 :: front, body, back ++ 125 :: after, by simp, hbody⟩

end Json

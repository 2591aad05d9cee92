import Mathlib.Data.List.Basic
import RedisSmq.Data.Decimal

/-!
# JSON texts and the search for a member

A JSON value is written without blanks. In its texts a quote and a backslash are escaped, as
are the control characters and some others. The names of members are alphanumeric.

A text search looks for the name of a member in quotes, a colon and a digit. It knows
nothing of the structure of the value, but it finds just the members of that name whose
value begins with a digit: a quote inside a text follows a backslash, and the quote that
ends a text is not followed by a colon.
-/

/-- Names of members. -/
abbrev JsonName := { name : String // name.toList.all Char.isAlphanum = true }

inductive Json where
  | null
  | number (n : Int)
  | str (s : String)
  | object (members : List (JsonName × Json))

namespace Json

def hexDigit (n : Nat) : Char := "0123456789abcdef".toList.getD n '0'

/-- A character by its number. -/
def unicodeEscape (n : Nat) : List Char :=
  ['\\', 'u', hexDigit (n / 4096), hexDigit (n / 256 % 16), hexDigit (n / 16 % 16),
    hexDigit (n % 16)]

/-- How a character of a text is written. Besides control characters, those that mean
something in HTML or end a line in JavaScript are written by their numbers. -/
def escape (c : Char) : List Char :=
  if c = '"' then ['\\', '"']
  else if c = '\\' then ['\\', '\\']
  else if c.toNat = 8 then ['\\', 'b']
  else if c.toNat = 9 then ['\\', 't']
  else if c.toNat = 10 then ['\\', 'n']
  else if c.toNat = 12 then ['\\', 'f']
  else if c.toNat = 13 then ['\\', 'r']
  else if c.toNat < 32 ∨ c ∈ ['<', '>', '&', Char.ofNat 0x2028, Char.ofNat 0x2029] then
    unicodeEscape c.toNat
  else [c]

/-- The characters of a text between its quotes. -/
def escapeAll (s : List Char) : List Char := s.flatMap escape

def quote (s : String) : List Char := '"' :: (escapeAll s.toList ++ ['"'])

/-- The name of a member and the colon behind it. -/
def label (name : JsonName) : List Char := '"' :: (name.1.toList ++ ['"', ':'])

/-- The sign and the digits of a number. -/
def numberChars (n : Int) : List Char :=
  (if n < 0 then ['-'] else []) ++ n.natAbs.repr.toList

/-- The comma in front of further members. -/
def comma {α : Type} (members : List α) : List Char := if members.isEmpty then [] else [',']

mutual

/-- The text of a value. -/
def chars : Json → List Char
  | null => ['n', 'u', 'l', 'l']
  | number n => numberChars n
  | str s => quote s
  | object members => '\x7b' :: memberChars members

/-- The members of an object, up to its closing brace. -/
def memberChars : List (JsonName × Json) → List Char
  | [] => ['\x7d']
  | (name, value) :: members =>
      label name ++ (value.chars ++ (comma members ++ memberChars members))

end

/-- The rest of a text behind its beginning. -/
def after? : List Char → List Char → Option (List Char)
  | [], text => some text
  | _ :: _, [] => none
  | a :: as, b :: bs => if a = b then after? as bs else none

/-- The first character, if it is a digit. -/
def headDigit? : List Char → Option Char
  | [] => none
  | c :: _ => if c.isDigit then some c else none

/-- The digit behind the label, if the text starts with the label and a digit. -/
def matchAt (name : JsonName) (text : List Char) : Option Char :=
  (after? (label name) text).bind headDigit?

/-- The first match in a text that starts at position `i`: where it is and the digit. -/
def findAt (name : JsonName) (i : Nat) : List Char → Option (Nat × Char)
  | [] => none
  | c :: cs =>
      match matchAt name (c :: cs) with
      | some d => some (i, d)
      | none => findAt name (i + 1) cs

mutual

/-- The first member of that name whose value begins with a digit, in the order of the text:
where it is if the value is written at position `i`, and the digit. -/
def firstAt (name : JsonName) (i : Nat) : Json → Option (Nat × Char)
  | null => none
  | number _ => none
  | str _ => none
  | object members => firstIn name (i + 1) members

def firstIn (name : JsonName) (i : Nat) : List (JsonName × Json) → Option (Nat × Char)
  | [] => none
  | (name', value) :: members =>
      let start := i + (label name').length
      let next := start + value.chars.length + (comma members).length
      let own := if name' = name then (headDigit? value.chars).map (i, ·) else none
      own.or ((firstAt name start value).or (firstIn name next members))

end

/-! ## Where the search goes on -/

section Find

variable {name : JsonName} {i : Nat}

theorem findAt_cons_of_none {c : Char} {cs : List Char} (h : matchAt name (c :: cs) = none) :
    findAt name i (c :: cs) = findAt name (i + 1) cs := by
  rw [findAt, h]

/-- A match starts with a quote. -/
theorem matchAt_cons_of_ne {c : Char} (h : c ≠ '"') (cs : List Char) :
    matchAt name (c :: cs) = none := by
  have hafter : after? (label name) (c :: cs) = none := if_neg h.symm
  rw [matchAt, hafter]
  rfl

/-- Characters other than quotes are passed over. -/
theorem findAt_append_of_notMem {w : List Char} (h : '"' ∉ w) (rest : List Char) :
    findAt name i (w ++ rest) = findAt name (i + w.length) rest := by
  induction w generalizing i with
  | nil => rfl
  | cons c w ih =>
    obtain ⟨hc, hw⟩ := not_or.1 (mt List.mem_cons.2 h)
    rw [List.cons_append, findAt_cons_of_none (matchAt_cons_of_ne (Ne.symm hc) _), ih hw,
      List.length_cons]
    congr 1
    omega

end Find

section Characters

variable {c : Char}

theorem ne_of_isAlphanum {d : Char} (hc : c.isAlphanum = true) (hd : d.isAlphanum = false) :
    c ≠ d := by
  rintro rfl
  rw [hc] at hd
  cases hd

theorem isAlphanum_of_mem {name : JsonName} (h : c ∈ name.1.toList) : c.isAlphanum = true :=
  List.all_eq_true.1 name.2 c h

theorem hexDigit_ne_quote (n : Nat) : '"' ≠ hexDigit n := by
  have hall : ("0123456789abcdef".toList.all fun d => '"' ≠ d) = true := by decide
  unfold hexDigit
  rw [List.getD_eq_getElem?_getD]
  cases hd : "0123456789abcdef".toList[n]? with
  | none => decide
  | some d => exact of_decide_eq_true (List.all_eq_true.1 hall d (List.mem_of_getElem? hd))

theorem quote_notMem_unicodeEscape (n : Nat) : '"' ∉ (unicodeEscape n).tail := by
  simp only [unicodeEscape, List.tail_cons, List.mem_cons, List.not_mem_nil, or_false, not_or]
  exact ⟨by decide, hexDigit_ne_quote _, hexDigit_ne_quote _, hexDigit_ne_quote _,
    hexDigit_ne_quote _⟩

/-- A character is written as it is, or behind a backslash and, unless it is a quote,
without quotes. -/
theorem escape_cases (c : Char) :
    (escape c = [c] ∧ c ≠ '"' ∧ c ≠ '\\') ∨ (∃ w, escape c = '\\' :: w ∧ '"' ∉ w) ∨
      escape c = ['\\', '"'] := by
  unfold escape
  by_cases hquote : c = '"'
  · exact .inr (.inr (if_pos hquote))
  by_cases hback : c = '\\'
  · exact .inr (.inl ⟨['\\'], by rw [if_neg hquote, if_pos hback], by decide⟩)
  rw [if_neg hquote, if_neg hback]
  split_ifs
  · exact .inr (.inl ⟨['b'], rfl, by decide⟩)
  · exact .inr (.inl ⟨['t'], rfl, by decide⟩)
  · exact .inr (.inl ⟨['n'], rfl, by decide⟩)
  · exact .inr (.inl ⟨['f'], rfl, by decide⟩)
  · exact .inr (.inl ⟨['r'], rfl, by decide⟩)
  · exact .inr (.inl ⟨_, rfl, quote_notMem_unicodeEscape c.toNat⟩)
  · exact .inl ⟨rfl, hquote, hback⟩

end Characters

/-- What may follow a value. -/
def Follows (rest : List Char) : Prop := ∀ c ∈ rest.head?, c = ',' ∨ c = '\x7d'

section Texts

variable {name : JsonName} {i : Nat} {rest : List Char}

/-- A text that is not followed by a colon is not a label, whatever is written in it. -/
theorem after_escapeAll (hrest : Follows rest) {w : List Char}
    (hw : ∀ c ∈ w, c.isAlphanum = true) (s : List Char) :
    after? (w ++ ['"', ':']) (escapeAll s ++ '"' :: rest) = none := by
  induction s generalizing w with
  | nil =>
    cases w with
    | nil =>
      cases rest with
      | nil => rfl
      | cons c rest =>
        have hc : ':' ≠ c := by
          rcases hrest c rfl with rfl | rfl <;> decide
        exact if_neg hc
    | cons a w =>
      exact if_neg (ne_of_isAlphanum (hw a List.mem_cons_self) (by decide))
  | cons x s ih =>
    have hcons : escapeAll (x :: s) = escape x ++ escapeAll s := rfl
    rw [hcons, List.append_assoc]
    -- An escaped character begins with a backslash, which no label has.
    have hescaped : ∀ t, after? (w ++ ['"', ':']) ('\\' :: t) = none := by
      intro t
      cases w with
      | nil => exact if_neg (by decide)
      | cons a w => exact if_neg (ne_of_isAlphanum (hw a List.mem_cons_self) (by decide))
    rcases escape_cases x with ⟨hx, hquote, -⟩ | ⟨t, hx, -⟩ | hx
    · rw [hx]
      cases w with
      | nil => exact if_neg (Ne.symm hquote)
      | cons a w =>
        have hrec := ih fun c hc => hw c (List.mem_cons_of_mem a hc)
        by_cases ha : a = x
        · exact (if_pos ha).trans hrec
        · exact if_neg ha
    · rw [hx]
      exact hescaped _
    · rw [hx]
      exact hescaped _

theorem matchAt_escapeAll (hrest : Follows rest) (s : List Char) :
    matchAt name ('"' :: (escapeAll s ++ '"' :: rest)) = none := by
  have hname : ∀ c ∈ name.1.toList, c.isAlphanum = true := fun c hc => isAlphanum_of_mem hc
  have hafter : after? (label name) ('"' :: (escapeAll s ++ '"' :: rest)) = none :=
    (if_pos rfl).trans (after_escapeAll hrest hname s)
  rw [matchAt, hafter]
  rfl

/-- The quote that ends a text or a label does not begin a match. -/
theorem matchAt_closing (hrest : ∀ c ∈ rest.head?, c ≠ '"' ∧ c.isAlphanum = false) :
    matchAt name ('"' :: rest) = none := by
  have hafter : after? (label name) ('"' :: rest) = none := by
    refine (if_pos rfl).trans ?_
    cases rest with
    | nil => cases name.1.toList <;> rfl
    | cons c rest =>
      obtain ⟨hquote, halnum⟩ := hrest c rfl
      cases hname : name.1.toList with
      | nil => exact if_neg (Ne.symm hquote)
      | cons a w =>
        have ha : a.isAlphanum = true :=
          @isAlphanum_of_mem a name (by rw [hname]; exact List.mem_cons_self)
        exact if_neg (ne_of_isAlphanum ha halnum)
  rw [matchAt, hafter]
  rfl

theorem Follows.closing (hrest : Follows rest) :
    ∀ c ∈ rest.head?, c ≠ '"' ∧ c.isAlphanum = false := by
  intro c hc
  rcases hrest c hc with rfl | rfl <;> decide

theorem findAt_escapeAll (hrest : Follows rest) (s : List Char) :
    findAt name i (escapeAll s ++ '"' :: rest) =
      findAt name (i + (escapeAll s).length + 1) rest := by
  induction s generalizing i with
  | nil => exact findAt_cons_of_none (matchAt_closing hrest.closing)
  | cons x s ih =>
    have hcons : escapeAll (x :: s) = escape x ++ escapeAll s := rfl
    rw [hcons, List.append_assoc, List.length_append, ← Nat.add_assoc]
    rcases escape_cases x with ⟨hx, hquote, -⟩ | ⟨w, hx, hw⟩ | hx
    · rw [findAt_append_of_notMem (by rw [hx]; simpa using Ne.symm hquote), ih]
    · rw [findAt_append_of_notMem (by rw [hx]; simp [hw]), ih]
    rw [hx]
    change findAt name i ('\\' :: '"' :: (escapeAll s ++ '"' :: rest)) = _
    rw [findAt_cons_of_none (matchAt_cons_of_ne (by decide) _),
      findAt_cons_of_none (matchAt_escapeAll hrest s), ih]
    rfl

/-- Nothing is found in a text. -/
theorem findAt_quote (hrest : Follows rest) (s : String) :
    findAt name i (quote s ++ rest) = findAt name (i + (quote s).length) rest := by
  have hquote : quote s ++ rest = '"' :: (escapeAll s.toList ++ '"' :: rest) := by
    simp [quote]
  rw [hquote, findAt_cons_of_none (matchAt_escapeAll hrest s.toList), findAt_escapeAll hrest]
  congr 1
  simp only [quote, List.length_cons, List.length_append, List.length_nil]
  omega

/-- Names are compared up to the quote behind them. -/
theorem after_name {w w' : List Char} (hw : ∀ c ∈ w, c.isAlphanum = true)
    (hw' : ∀ c ∈ w', c.isAlphanum = true) :
    after? (w ++ ['"', ':']) (w' ++ '"' :: ':' :: rest) = if w' = w then some rest else none := by
  induction w generalizing w' with
  | nil =>
    cases w' with
    | nil => rfl
    | cons b w' =>
      exact if_neg (Ne.symm (ne_of_isAlphanum (hw' b List.mem_cons_self) (by decide)))
  | cons a w ih =>
    have ha := hw a List.mem_cons_self
    cases w' with
    | nil => exact if_neg (ne_of_isAlphanum ha (by decide))
    | cons b w' =>
      have hrec := @ih w' (fun c hc => hw c (List.mem_cons_of_mem a hc))
        (fun c hc => hw' c (List.mem_cons_of_mem b hc))
      change (if a = b then after? (w ++ _) (w' ++ _) else none) = _
      rw [hrec]
      by_cases hab : a = b
      · subst hab
        simp
      · simp [hab, Ne.symm hab]

theorem matchAt_label (name' : JsonName) :
    matchAt name (label name' ++ rest) = if name' = name then headDigit? rest else none := by
  have htext : label name' ++ rest = '"' :: (name'.1.toList ++ '"' :: ':' :: rest) := by
    simp [label]
  have hafter : after? (label name) (label name' ++ rest) =
      if name' = name then some rest else none := by
    rw [htext]
    refine (if_pos rfl).trans ?_
    rw [after_name (fun c hc => isAlphanum_of_mem hc) (fun c hc => isAlphanum_of_mem hc)]
    simp only [String.toList_inj, Subtype.ext_iff]
  rw [matchAt, hafter]
  split <;> rfl

/-- A label is found if it has the name and a digit follows. -/
theorem findAt_label (name' : JsonName) :
    findAt name i (label name' ++ rest) =
      (if name' = name then (headDigit? rest).map (i, ·) else none).or
        (findAt name (i + (label name').length) rest) := by
  have hmatch := @matchAt_label name rest name'
  have htext : label name' ++ rest = '"' :: (name'.1.toList ++ '"' :: ':' :: rest) := by
    simp [label]
  have hname' : '"' ∉ name'.1.toList := by
    intro hmem
    exact absurd (isAlphanum_of_mem hmem) (by decide)
  -- Behind the first quote of a label nothing begins a match.
  have hgo : findAt name (i + 1) (name'.1.toList ++ '"' :: ':' :: rest) =
      findAt name (i + (label name').length) rest := by
    rw [findAt_append_of_notMem hname', findAt_cons_of_none (matchAt_closing ?_),
      findAt_cons_of_none (matchAt_cons_of_ne (by decide) _)]
    · congr 1
      simp only [label, List.length_cons, List.length_append, List.length_nil]
      omega
    · rintro c ⟨⟩
      decide
  rw [htext] at hmatch ⊢
  rw [findAt, hmatch, hgo]
  by_cases heq : name' = name
  · rw [if_pos heq, if_pos heq]
    cases headDigit? rest <;> rfl
  · rw [if_neg heq, if_neg heq]
    rfl

end Texts

section Values

theorem quote_notMem_numberChars (n : Int) : '"' ∉ numberChars n := by
  obtain ⟨c, cs, hdigits, hall⟩ := Decimal.exists_toList_repr n.natAbs
  rw [numberChars, hdigits]
  intro hmem
  rcases List.mem_append.1 hmem with hsign | hdigit
  · split at hsign <;> revert hsign <;> decide
  · exact absurd (hall _ hdigit) (by decide)

theorem chars_ne_nil (v : Json) : v.chars ≠ [] := by
  cases v with
  | null => simp [chars]
  | number n =>
    obtain ⟨c, cs, hdigits, -⟩ := Decimal.exists_toList_repr n.natAbs
    simp [chars, numberChars, hdigits]
  | str s => simp [chars, quote]
  | object members => simp [chars]

theorem headDigit_append {w : List Char} (h : w ≠ []) (rest : List Char) :
    headDigit? (w ++ rest) = headDigit? w := by
  cases w with
  | nil => exact absurd rfl h
  | cons c w => rfl

theorem follows_members (members : List (JsonName × Json)) (rest : List Char) :
    Follows (comma members ++ (memberChars members ++ rest)) := by
  cases members with
  | nil =>
    rintro c ⟨⟩
    exact .inr rfl
  | cons member members =>
    rintro c ⟨⟩
    exact .inl rfl

variable (name : JsonName)

mutual

/-- The search finds the first member of the name whose value begins with a digit, and goes
on behind the value if there is none. -/
theorem findAt_chars (v : Json) (i : Nat) (rest : List Char) (hrest : Follows rest) :
    findAt name i (v.chars ++ rest) =
      (firstAt name i v).or (findAt name (i + v.chars.length) rest) := by
  cases v with
  | null => exact findAt_append_of_notMem (by decide) rest
  | number n =>
    rw [chars]
    exact findAt_append_of_notMem (quote_notMem_numberChars n) rest
  | str s =>
    rw [chars]
    exact findAt_quote hrest s
  | object members =>
    rw [chars, List.cons_append, findAt_cons_of_none (matchAt_cons_of_ne (by decide) _),
      findAt_memberChars members, firstAt, List.length_cons]
    congr 2
    omega

theorem findAt_memberChars (members : List (JsonName × Json)) (i : Nat) (rest : List Char) :
    findAt name i (memberChars members ++ rest) =
      (firstIn name i members).or (findAt name (i + (memberChars members).length) rest) := by
  cases members with
  | nil => exact findAt_append_of_notMem (by decide) rest
  | cons member members =>
    obtain ⟨name', value⟩ := member
    have hcomma : '"' ∉ comma members := by
      unfold comma
      split <;> decide
    rw [memberChars, firstIn, List.append_assoc, List.append_assoc, List.append_assoc,
      findAt_label, headDigit_append value.chars_ne_nil,
      findAt_chars value _ _ (follows_members members rest), findAt_append_of_notMem hcomma,
      findAt_memberChars members]
    simp only [Option.or_assoc, List.length_append]
    congr 4
    omega

end

/-- In the text of a value the search finds what `firstAt` says. -/
theorem findAt_zero_chars (v : Json) : findAt name 0 v.chars = firstAt name 0 v := by
  have hfind := findAt_chars name v 0 [] (by rintro c ⟨⟩)
  rw [List.append_nil] at hfind
  rw [hfind]
  exact Option.or_none

end Values

section Front

/-- Members with the comma that follows each. -/
def frontChars (front : List (JsonName × Json)) : List Char :=
  front.flatMap fun member => label member.1 ++ (member.2.chars ++ [','])

variable (front back : List (JsonName × Json)) (member : JsonName × Json)

theorem comma_append : comma (front ++ member :: back) = [','] := by
  cases front <;> rfl

theorem frontChars_cons :
    frontChars (member :: front) =
      label member.1 ++ (member.2.chars ++ ',' :: frontChars front) := by
  simp [frontChars]

theorem memberChars_append :
    memberChars (front ++ member :: back) = frontChars front ++ memberChars (member :: back) := by
  induction front with
  | nil => rfl
  | cons m front ih =>
    rw [List.cons_append, memberChars, comma_append, ih, frontChars_cons]
    simp only [List.append_assoc, List.cons_append, List.nil_append]

/-- Members in front are searched first. -/
theorem firstIn_append (name : JsonName) (i : Nat) :
    firstIn name i (front ++ member :: back) =
      (firstIn name i front).or
        (firstIn name (i + (frontChars front).length) (member :: back)) := by
  induction front generalizing i with
  | nil => rfl
  | cons m front ih =>
    have hnext : ∀ j, firstIn name (j + (comma front).length) front =
        firstIn name (j + 1) front := by
      intro j
      cases front <;> rfl
    have hlength : (frontChars (m :: front)).length =
        (label m.1).length + m.2.chars.length + 1 + (frontChars front).length := by
      rw [frontChars_cons]
      simp only [List.length_append, List.length_cons]
      omega
    have hend : i + (label m.1).length + m.2.chars.length + 1 + (frontChars front).length =
        i + (frontChars (m :: front)).length := by
      rw [hlength]
      omega
    rw [List.cons_append, firstIn, firstIn, comma_append, List.length_singleton]
    simp only [Option.or_assoc, ih, hnext, hend]

end Front

end Json

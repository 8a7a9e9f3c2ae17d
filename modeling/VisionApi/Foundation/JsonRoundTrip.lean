import VisionApi.Foundation.Json
import Mathlib.Tactic.SplitIfs

/-!
# Reading back what was written

A value whose objects have no key twice, and whose floats read back, is read
back from its text.

The proof follows the grammar from the leaves up.  A character is read back from its
escape, one unit of UTF-16 or two; a text from its characters; a number from its
token, which ends where no character of a number follows (`Ends`).  For values
`Reads` says that a reader gets a value back from its text whatever follows, and a
list of such texts with commas between them is read by induction on the list.

Two things need care.  The reader is given fuel, so that every statement carries a
bound by the length of the text, which the parts of a text meet since they are
shorter.  And an array and an object decide by the first character whether they are
empty, which is why the text of a value may not open like their end (`Opens`).
-/

namespace VisionApi.Foundation.Json

variable {Number : Type}

/-! ## Strings -/

theorem hexValue_digitChar : ∀ digit < 16, hexValue (Nat.digitChar digit) = some digit := by
  decide

/-- Four hexadecimal digits are read back as their number. -/
theorem readUnit_digits {unit : ℕ} (small : unit < 65536) (rest : List Char) :
    readUnit (Nat.digitChar (unit / 4096) :: Nat.digitChar (unit / 256 % 16) ::
      Nat.digitChar (unit / 16 % 16) :: Nat.digitChar (unit % 16) :: rest) =
        some (unit, rest) := by
  have first := hexValue_digitChar (unit / 4096) (by omega)
  have second := hexValue_digitChar (unit / 256 % 16) (by omega)
  have third := hexValue_digitChar (unit / 16 % 16) (by omega)
  have fourth := hexValue_digitChar (unit % 16) (by omega)
  have value : unit / 4096 * 4096 + unit / 256 % 16 * 256 + unit / 16 % 16 * 16 + unit % 16 =
      unit := by omega
  simp only [readUnit, first, second, third, fourth, Option.bind_eq_bind, Option.bind_some, value]

/-- A character is no surrogate. -/
theorem toNat_of_char (char : Char) :
    char.toNat < 55296 ∨ 57343 < char.toNat ∧ char.toNat < 1114112 :=
  char.valid

/-- A character of the basic plane is one code unit. -/
theorem readUnicode_unit {char : Char} (basic : char.toNat < 65536) (rest : List Char) :
    readChar (writeUnit char.toNat ++ rest) = some (char, rest) := by
  have valid := toNat_of_char char
  have notHigh : ¬(55296 ≤ char.toNat ∧ char.toNat < 56320) := by omega
  have notLow : ¬(56320 ≤ char.toNat ∧ char.toNat < 57344) := by omega
  simp only [writeUnit, List.cons_append, List.nil_append, readChar, readUnicode,
    readUnit_digits basic, Option.bind_eq_bind, Option.bind_some, if_neg notHigh, if_neg notLow,
    Char.ofNat_toNat]

/-- Two escaped surrogates are read back as one character. -/
theorem readUnicode_surrogates {high low : ℕ} (isHigh : 55296 ≤ high ∧ high < 56320)
    (isLow : 56320 ≤ low ∧ low < 57344) (rest : List Char) :
    readChar (writeUnit high ++ writeUnit low ++ rest) =
      some (Char.ofNat (65536 + (high - 55296) * 1024 + (low - 56320)), rest) := by
  simp only [writeUnit, List.cons_append, List.nil_append, readChar, readUnicode,
    readUnit_digits (show high < 65536 by omega), readUnit_digits (show low < 65536 by omega),
    Option.bind_eq_bind, Option.bind_some, if_pos isHigh, if_pos isLow]

/-- Any other character is a surrogate pair. -/
theorem readUnicode_pair {char : Char} (supplementary : 65536 ≤ char.toNat) (rest : List Char) :
    readChar (writeUnit (55296 + (char.toNat - 65536) / 1024) ++
      writeUnit (56320 + (char.toNat - 65536) % 1024) ++ rest) = some (char, rest) := by
  have valid := toNat_of_char char
  have value : ∀ offset, 65536 + (55296 + offset / 1024 - 55296) * 1024 +
      (56320 + offset % 1024 - 56320) = 65536 + offset := by
    intro offset
    omega
  rw [readUnicode_surrogates (by omega) (by omega), value, Nat.add_sub_cancel' supplementary,
    Char.ofNat_toNat]

/-- A character is read back, and does not start with the closing quote. -/
theorem readChar_writeChar (char : Char) (rest : List Char) :
    readChar (writeChar char ++ rest) = some (char, rest) ∧
      (writeChar char).head? ≠ some '"' ∧ writeChar char ≠ [] := by
  simp only [writeChar]
  split
  · rename_i escape isEscape
    simp only [shortEscapes, Dict.get?] at isEscape
    split_ifs at isEscape <;> cases isEscape <;> subst char <;> exact ⟨rfl, by decide, by decide⟩
  · rename_i plain
    have notQuote : char ≠ '"' := by
      rintro rfl
      cases plain
    have notBackslash : char ≠ '\\' := by
      rintro rfl
      cases plain
    split_ifs with printable basic
    · have notControl : ¬char.toNat < 32 := by
        have space : ' '.toNat ≤ char.toNat := printable.1
        exact Nat.not_lt.mpr space
      refine ⟨?_, by simpa using notQuote, by simp⟩
      simp [readChar, notBackslash, notControl]
    · exact ⟨readUnicode_unit basic rest, by simp [writeUnit], by simp [writeUnit]⟩
    · refine ⟨readUnicode_pair (by omega) rest, by simp [writeUnit], by simp [writeUnit]⟩

/-- The characters of a text are read back up to the closing quote. -/
theorem readChars_write (text rest : List Char) {fuel : ℕ} (enough : text.length < fuel) :
    readChars fuel (text.flatMap writeChar ++ '"' :: rest) = some (text, rest) := by
  induction text generalizing fuel with
  | nil =>
      cases fuel with
      | zero => exact absurd enough (Nat.not_lt_zero _)
      | succ fuel => rfl
  | cons char text ih =>
      cases fuel with
      | zero => exact absurd enough (Nat.not_lt_zero _)
      | succ fuel =>
          have later := ih (Nat.lt_of_succ_lt_succ enough)
          rcases readChar_writeChar char (text.flatMap writeChar ++ '"' :: rest) with
            ⟨isChar, notClosing, nonempty⟩
          rw [List.flatMap_cons, List.append_assoc]
          cases written : writeChar char with
          | nil => exact absurd written nonempty
          | cons first others =>
              rw [written] at isChar notClosing
              have notQuote : first ≠ '"' := by simpa using notClosing
              rw [List.cons_append] at isChar ⊢
              rw [readChars, isChar]
              · simp only [Option.bind_eq_bind, Option.bind_some, later]
              · intro others same
                exact notQuote (List.cons.inj same).1

theorem length_le_write (text : List Char) : text.length ≤ (text.flatMap writeChar).length := by
  induction text with
  | nil => exact Nat.le_refl _
  | cons char text ih =>
      have nonempty := List.length_pos_iff.mpr (readChar_writeChar char []).2.2
      rw [List.flatMap_cons, List.length_append, List.length_cons]
      omega

/-- A text is read back from its quotes. -/
theorem readString_write (text : String) (rest : List Char) :
    readString (text.toList.flatMap writeChar ++ '"' :: rest) = some (text, rest) := by
  have enough : text.toList.length <
      (text.toList.flatMap writeChar ++ '"' :: rest).length + 1 := by
    have short := length_le_write text.toList
    rw [List.length_append]
    omega
  rw [readString, readChars_write _ _ enough, Option.map_some, String.ofList_toList]

/-! ## Numbers -/

/-- Nothing of the number is left. -/
def Ends (rest : List Char) : Prop :=
  ∀ char ∈ rest.head?, isNumberChar char = false

theorem head?_toDigits (value : ℕ) (large : 10 ≤ value) :
    (Nat.toDigits 10 value).head? ≠ some '0' := by
  induction value using Nat.strongRecOn with
  | ind value ih =>
      rw [Nat.toDigits_of_base_le (by decide) large, List.head?_append]
      cases first : (Nat.toDigits 10 (value / 10)).head? with
      | none => exact absurd (List.head?_eq_none_iff.mp first) Nat.toDigits_ne_nil
      | some char =>
          rw [Option.some_or, ← first]
          by_cases more : 10 ≤ value / 10
          · exact ih _ (by omega) more
          · rw [Nat.toDigits_of_lt_base (Nat.lt_of_not_le more), List.head?_cons]
            intro zero
            have isZero := Nat.digitChar_eq_zero.mp (Option.some.inj zero)
            omega

theorem isDigit_of_mem_toDigits (value : ℕ) :
    ∀ char ∈ Nat.toDigits 10 value, char.isDigit = true := by
  intro char isDigit
  exact Nat.isDigit_of_mem_toDigits (by decide) (by decide) isDigit

/-- A natural number is read back from its digits. -/
theorem readNat_toDigits (value : ℕ) : readNat (Nat.toDigits 10 value) = some value := by
  have digits : (Nat.toDigits 10 value).all Char.isDigit = true :=
    List.all_eq_true.mpr (isDigit_of_mem_toDigits value)
  have noLeadingZero : (Nat.toDigits 10 value).head? ≠ some '0' ∨
      (Nat.toDigits 10 value).length = 1 := by
    by_cases large : 10 ≤ value
    · exact .inl (head?_toDigits value large)
    · right
      rw [Nat.toDigits_of_lt_base (Nat.lt_of_not_le large)]
      rfl
  simp only [readNat, digits, Nat.ofDigitChars_ten_toDigits]
  simp [noLeadingZero, Nat.toDigits_ne_nil]

theorem toList_toString (value : ℤ) : (toString value).toList =
    if 0 ≤ value then Nat.toDigits 10 value.toNat else '-' :: Nat.toDigits 10 (-value).toNat := by
  rw [Int.toString_eq_repr, Int.repr_eq_if]
  split
  · exact Nat.toList_repr
  · rw [String.toList_append, Nat.toList_repr]
    rfl

/-- An int is a nonempty token that reads back. -/
theorem readInt_toString (value : ℤ) : readInt (toString value).toList = some value := by
  rw [toList_toString]
  split
  · rename_i nonneg
    cases digits : Nat.toDigits 10 value.toNat with
    | nil => exact absurd digits Nat.toDigits_ne_nil
    | cons first others =>
        have notMinus : first ≠ '-' := by
          rintro rfl
          have isDigit := isDigit_of_mem_toDigits value.toNat '-'
            (by rw [digits]; exact List.mem_cons_self)
          cases isDigit
        rw [readInt, ← digits, readNat_toDigits, Option.map_some, Int.toNat_of_nonneg nonneg]
        intro others same
        exact notMinus (List.cons.inj same).1
  · rw [readInt, readNat_toDigits, Option.map_some]
    congr 1
    omega

theorem isNumberChar_of_mem_toString (value : ℤ) :
    ∀ char ∈ (toString value).toList, isNumberChar char = true := by
  intro char isChar
  have ofDigit : ∀ number, char ∈ Nat.toDigits 10 number → isNumberChar char = true := by
    intro number isDigit
    simp only [isNumberChar, isDigit_of_mem_toDigits number char isDigit, Bool.true_or]
  rw [toList_toString] at isChar
  split at isChar
  · exact ofDigit _ isChar
  · rcases List.mem_cons.mp isChar with rfl | isDigit
    · rfl
    · exact ofDigit _ isDigit

/-- A float whose text is a number token, is not an int, and reads back. -/
structure FloatText.Prints (floats : FloatText Number) (value : Number) : Prop where
  token : ∀ char ∈ floats.write value, isNumberChar char = true
  nonempty : floats.write value ≠ []
  notInt : readInt (floats.write value) = none
  readBack : floats.read (floats.write value) = some value

theorem takeWhile_token {token rest : List Char}
    (isToken : ∀ char ∈ token, isNumberChar char = true) (ends : Ends rest) :
    (token ++ rest).takeWhile isNumberChar = token ∧
      (token ++ rest).dropWhile isNumberChar = rest := by
  induction token with
  | nil =>
      cases rest with
      | nil => exact ⟨rfl, rfl⟩
      | cons char rest =>
          have other := ends char rfl
          simp only [List.nil_append, List.takeWhile, List.dropWhile, other, and_self]
  | cons char token ih =>
      rcases ih fun other isOther => isToken other (List.mem_cons_of_mem _ isOther) with
        ⟨taken, dropped⟩
      have isNumber := isToken char List.mem_cons_self
      simp only [List.cons_append, List.takeWhile, List.dropWhile, isNumber, taken, dropped,
        and_self]

/-- An integer is read back as an integer. -/
theorem readNumber_int (floats : FloatText Number) (value : ℤ) {rest : List Char}
    (ends : Ends rest) :
    readNumber floats ((toString value).toList ++ rest) = some (.int value, rest) := by
  rcases takeWhile_token (isNumberChar_of_mem_toString value) ends with
    ⟨taken, dropped⟩
  simp only [readNumber, taken, dropped, readInt_toString]

/-- A float that prints is read back as a float. -/
theorem readNumber_float {floats : FloatText Number} {value : Number}
    (prints : floats.Prints value) {rest : List Char} (ends : Ends rest) :
    readNumber floats (floats.write value ++ rest) = some (.float value, rest) := by
  rcases takeWhile_token prints.token ends with ⟨taken, dropped⟩
  simp only [readNumber, taken, dropped, prints.notInt, prints.readBack, Option.map_some]

/-! ## Values -/

/-- No object has a key twice, and every float prints. -/
inductive WellFormed (floats : FloatText Number) : Json Number → Prop where
  | null : WellFormed floats .null
  | bool (value : Bool) : WellFormed floats (.bool value)
  | int (value : ℤ) : WellFormed floats (.int value)
  | float (value : Number) (prints : floats.Prints value) : WellFormed floats (.float value)
  | string (text : String) : WellFormed floats (.string text)
  | array (items : List (Json Number)) (each : ∀ item ∈ items, WellFormed floats item) :
      WellFormed floats (.array items)
  | object (members : List (String × Json Number)) (unique : (members.map Prod.fst).Nodup)
      (each : ∀ member ∈ members, WellFormed floats member.2) :
      WellFormed floats (.object members)

/-- What begins like a number is read as one. -/
theorem readValue_number (floats : FloatText Number) (fuel : ℕ) {char : Char} {rest : List Char}
    (isNumber : isNumberChar char = true) :
    readValue floats (fuel + 1) (char :: rest) = readNumber floats (char :: rest) := by
  have apart : ∀ other, isNumberChar other = false → char ≠ other := by
    rintro other notNumber rfl
    exact Bool.false_ne_true (notNumber.symm.trans isNumber)
  have notSpace : isSpace char = false := by
    simp only [isSpace, List.mem_cons, List.not_mem_nil, or_false, apart ' ' rfl, apart '\t' rfl,
      apart '\n' rfl, apart '\r' rfl, decide_false]
  have trimmed : skipSpace (char :: rest) = char :: rest := by
    simp only [skipSpace, List.dropWhile, notSpace]
  simp only [readValue, trimmed]
  split
  · rename_i same
    exact absurd (List.cons.inj same).1 (apart 'n' rfl)
  · rename_i same
    exact absurd (List.cons.inj same).1 (apart 't' rfl)
  · rename_i same
    exact absurd (List.cons.inj same).1 (apart 'f' rfl)
  · rename_i same
    exact absurd (List.cons.inj same).1 (apart '"' rfl)
  · rename_i same
    exact absurd (List.cons.inj same).1 (apart '[' rfl)
  · rename_i same
    exact absurd (List.cons.inj same).1 (apart '{' rfl)
  · rfl

/-! ## Sequences -/

section Sequences

variable {Item : Type} {read : List Char → Option (Item × List Char)} {text : List Char}
  {item : Item}

/-- The item is read from its text, after spaces. -/
def Reads (read : List Char → Option (Item × List Char)) (text : List Char) (item : Item) : Prop :=
  ∀ gap rest, gap.all isSpace = true → Ends rest → read (gap ++ (text ++ rest)) = some (item, rest)

/-- Blanks in front of a text are skipped. -/
theorem skipSpace_append {gap : List Char} (spaces : gap.all isSpace = true) (rest : List Char) :
    skipSpace (gap ++ rest) = skipSpace rest := by
  induction gap with
  | nil => rfl
  | cons char gap ih =>
      rw [List.all_cons, Bool.and_eq_true] at spaces
      simp only [skipSpace, List.cons_append, List.dropWhile, spaces.1]
      exact ih spaces.2

theorem skipSpace_cons {char : Char} (visible : isSpace char = false) (rest : List Char) :
    skipSpace (char :: rest) = char :: rest := by
  simp only [skipSpace, List.dropWhile, visible]

theorem ends_cons {char : Char} (other : isNumberChar char = false) (rest : List Char) :
    Ends (char :: rest) := by
  rintro _ ⟨⟩
  exact other

theorem gap_isSpace (separators : Separators) : separators.gap.all isSpace = true := by
  cases separators with
  | spaced => rfl
  | compact => rfl

theorem reads_of_trim (trims : ∀ gap rest, gap.all isSpace = true → read (gap ++ rest) = read rest)
    (reads : ∀ rest, Ends rest → read (text ++ rest) = some (item, rest)) :
    Reads read text item := by
  intro gap rest spaces ends
  rw [trims gap _ spaces]
  exact reads rest ends

@[simp]
theorem join_singleton (separators : Separators) (text : List Char) :
    join separators [text] = text := by
  simp [join]

theorem join_cons_cons (separators : Separators) (first second : List Char)
    (texts : List (List Char)) : join separators (first :: second :: texts) =
      first ++ ',' :: (separators.gap ++ join separators (second :: texts)) := by
  simp [join, List.intercalate]

/-- Items that are read from their texts are read from the joined text. -/
theorem readSequence_join (read : List Char → Option (Item × List Char))
    (separators : Separators) (writeItem : Item → List Char) (close : Char)
    (visible : isSpace close = false) (other : isNumberChar close = false)
    (notComma : ',' ≠ close) {items : List Item} (nonempty : items ≠ [])
    (reads : ∀ item ∈ items, Reads read (writeItem item) item) {fuel : ℕ}
    (enough : items.length ≤ fuel) (rest : List Char) :
    ∀ gap, gap.all isSpace = true →
      readSequence read close fuel
        (gap ++ (join separators (items.map writeItem) ++ close :: rest)) = some (items, rest) := by
  induction items generalizing fuel with
  | nil => exact absurd rfl nonempty
  | cons item items ih =>
      intro gap spaces
      cases fuel with
      | zero => exact absurd enough (Nat.not_succ_le_zero _)
      | succ fuel =>
          have readsItem := reads item List.mem_cons_self
          cases items with
          | nil =>
              have first := readsItem gap (close :: rest) spaces (ends_cons other rest)
              rw [List.map_cons, List.map_nil, join_singleton, readSequence, first]
              simp only [Option.bind_eq_bind, Option.bind_some, skipSpace_cons visible, if_true]
          | cons next items =>
              have later := ih (List.cons_ne_nil _ _)
                (fun other isOther => reads other (List.mem_cons_of_mem _ isOther))
                (Nat.le_of_succ_le_succ enough) separators.gap (gap_isSpace separators)
              have joined : join separators ((item :: next :: items).map writeItem) ++
                  close :: rest = writeItem item ++ ',' :: (separators.gap ++
                    (join separators ((next :: items).map writeItem) ++ close :: rest)) := by
                simp only [List.map_cons, join_cons_cons, List.append_assoc, List.cons_append]
              have first := readsItem gap (',' :: (separators.gap ++
                (join separators ((next :: items).map writeItem) ++ close :: rest))) spaces
                (ends_cons rfl _)
              rw [joined, readSequence, first]
              simp only [Option.bind_eq_bind, Option.bind_some,
                skipSpace_cons (show isSpace ',' = false from rfl), if_neg notComma, if_true,
                later]

end Sequences

/-! ## The round trip -/

theorem writeItems_eq_map (floats : FloatText Number) (separators : Separators)
    (items : List (Json Number)) :
    writeItems floats separators items = items.map (write floats separators) := by
  induction items with
  | nil => rfl
  | cons item items ih => rw [writeItems, ih, List.map_cons]

theorem writeMembers_eq_map (floats : FloatText Number) (separators : Separators)
    (members : List (String × Json Number)) :
    writeMembers floats separators members = members.map fun member =>
      writeMember separators member.1 (write floats separators member.2) := by
  induction members with
  | nil => rfl
  | cons member members ih => rw [writeMembers, ih, List.map_cons]

theorem ofMembers_of_nodup {Value : Type} {members : List (String × Value)}
    (unique : (members.map Prod.fst).Nodup) : ofMembers members = members := by
  have append : ∀ dict : List (String × Value), ((dict ++ members).map Prod.fst).Nodup →
      members.foldl (fun dict member => Dict.set dict member.1 member.2) dict =
        dict ++ members := by
    clear unique
    induction members with
    | nil =>
        intro dict _
        exact (List.append_nil dict).symm
    | cons member members ih =>
        intro dict unique
        have fresh : member.1 ∉ dict.map Prod.fst := by
          rw [List.map_append, List.map_cons, List.nodup_append] at unique
          intro known
          exact unique.2.2 _ known _ List.mem_cons_self rfl
        rw [List.foldl_cons, Dict.set_of_notMem fresh, ih, List.append_assoc]
        · rfl
        · rwa [List.append_assoc]
  exact append [] unique

theorem readValue_trims (floats : FloatText Number) (fuel : ℕ) (gap rest : List Char)
    (spaces : gap.all isSpace = true) :
    readValue floats fuel (gap ++ rest) = readValue floats fuel rest := by
  cases fuel with
  | zero => rfl
  | succ fuel => simp only [readValue, skipSpace_append spaces]

theorem readMember_trims {Value : Type} (read : List Char → Option (Value × List Char))
    (gap rest : List Char) (spaces : gap.all isSpace = true) :
    readMember read (gap ++ rest) = readMember read rest := by
  simp only [readMember, skipSpace_append spaces]

/-- The text starts with a visible character other than the closing one. -/
def Opens (close : Char) (text : List Char) : Prop :=
  ∃ char rest, text = char :: rest ∧ isSpace char = false ∧ char ≠ close

theorem Opens.join {close : Char} (separators : Separators) {texts : List (List Char)}
    (nonempty : texts ≠ []) (opens : ∀ text ∈ texts, Opens close text) :
    Opens close (join separators texts) := by
  cases texts with
  | nil => exact absurd rfl nonempty
  | cons first texts =>
      rcases opens first List.mem_cons_self with ⟨char, rest, rfl, visible, notClosing⟩
      cases texts with
      | nil => exact ⟨char, rest, join_singleton _ _, visible, notClosing⟩
      | cons second texts => exact ⟨char, _, join_cons_cons _ _ _ _, visible, notClosing⟩

/-- The text of a value does not begin with the end of an array. -/
theorem opens_write {floats : FloatText Number} {value : Json Number}
    (wellFormed : WellFormed floats value) (separators : Separators) :
    Opens ']' (write floats separators value) := by
  have ofNumber : ∀ token : List Char, (∀ char ∈ token, isNumberChar char = true) → token ≠ [] →
      Opens ']' token := by
    intro token isToken nonempty
    rcases List.exists_cons_of_ne_nil nonempty with ⟨char, rest, rfl⟩
    have isNumber := isToken char List.mem_cons_self
    refine ⟨char, rest, rfl, ?_, ?_⟩
    · cases space : isSpace char with
      | false => rfl
      | true =>
          simp only [isSpace, List.mem_cons, List.not_mem_nil, or_false,
            decide_eq_true_eq] at space
          rcases space with rfl | rfl | rfl | rfl <;> cases isNumber
    · rintro rfl
      cases isNumber
  cases wellFormed with
  | null => exact ⟨_, _, rfl, rfl, by decide⟩
  | bool value => cases value <;> exact ⟨_, _, rfl, rfl, by decide⟩
  | int value =>
      have nonempty : (toString value).toList ≠ [] := by
        intro empty
        have read := readInt_toString value
        rw [empty] at read
        cases read
      exact ofNumber _ (isNumberChar_of_mem_toString value) nonempty
  | float value prints => exact ofNumber _ prints.token prints.nonempty
  | string text => exact ⟨_, _, rfl, rfl, by decide⟩
  | array items each => exact ⟨_, _, rfl, rfl, by decide⟩
  | object members unique each => exact ⟨_, _, rfl, rfl, by decide⟩

/-- A text is no longer than a list of texts it is joined into. -/
theorem length_le_join (separators : Separators) {text : List Char} {texts : List (List Char)}
    (isText : text ∈ texts) : text.length ≤ (join separators texts).length := by
  induction texts with
  | nil => cases isText
  | cons first texts ih =>
      cases texts with
      | nil =>
          cases List.mem_singleton.mp isText
          have same := congrArg List.length (join_singleton separators text)
          omega
      | cons second texts =>
          rw [join_cons_cons, List.length_append, List.length_cons, List.length_append]
          rcases List.mem_cons.mp isText with rfl | later
          · omega
          · have short := ih later
            omega

theorem count_le_join (separators : Separators) {texts : List (List Char)}
    (nonempty : ∀ text ∈ texts, text ≠ []) : texts.length ≤ (join separators texts).length := by
  induction texts with
  | nil => exact Nat.zero_le _
  | cons first texts ih =>
      have firstLength := List.length_pos_iff.mpr (nonempty first List.mem_cons_self)
      cases texts with
      | nil =>
          rw [join_singleton]
          exact firstLength
      | cons second texts =>
          have later := ih fun text isText => nonempty text (List.mem_cons_of_mem _ isText)
          simp only [join_cons_cons, List.length_append, List.length_cons] at later ⊢
          omega

/-- A member is read back from its text. -/
theorem readMember_write {floats : FloatText Number} {fuel : ℕ} (separators : Separators)
    (key : String) {text : List Char} {value : Json Number}
    (reads : Reads (readValue floats fuel) text value) :
    Reads (readMember (readValue floats fuel)) (writeMember separators key text) (key, value) := by
  apply reads_of_trim (readMember_trims _)
  intro rest ends
  have shape : writeMember separators key text ++ rest =
      '"' ::
        (key.toList.flatMap writeChar ++ '"' :: ':' :: (separators.gap ++ (text ++ rest))) := by
    simp [writeMember, writeString]
  rw [shape, readMember, skipSpace_cons rfl]
  simp only [readString_write, Option.bind_eq_bind, Option.bind_some,
    skipSpace_cons (show isSpace ':' = false from rfl),
    reads _ _ (gap_isSpace separators) ends]

/-- The fuel left inside brackets is enough for each text and for their number. -/
theorem fits_of_join (separators : Separators) {texts : List (List Char)} {fuel : ℕ}
    (nonempty : ∀ text ∈ texts, text ≠ []) (enough : (join separators texts).length < fuel) :
    texts.length ≤ fuel ∧ ∀ text ∈ texts, text.length < fuel := by
  constructor
  · have counted := count_le_join separators nonempty
    omega
  · intro text isText
    have short := length_le_join separators isText
    omega

/-- The value is read from its text with enough fuel, before any rest that does not continue a
number. -/
def ReadsBack (floats : FloatText Number) (separators : Separators) (value : Json Number) : Prop :=
  ∀ fuel rest, (write floats separators value).length ≤ fuel → Ends rest →
    readValue floats (fuel + 1) (write floats separators value ++ rest) = some (value, rest)

/-- A value that reads back does so with any larger fuel. -/
theorem ReadsBack.reads {floats : FloatText Number} {separators : Separators}
    {value : Json Number} (readsBack : ReadsBack floats separators value) {fuel : ℕ}
    (enough : (write floats separators value).length < fuel) :
    Reads (readValue floats fuel) (write floats separators value) value := by
  apply reads_of_trim (readValue_trims _ _)
  intro rest ends
  cases fuel with
  | zero => exact absurd enough (Nat.not_lt_zero _)
  | succ fuel => exact readsBack fuel rest (Nat.le_of_lt_succ enough) ends

/-- What is between the brackets of a nonempty array or object is read back. -/
theorem readSequence_items {Item : Type} (read : List Char → Option (Item × List Char))
    (separators : Separators) (writeItem : Item → List Char) (close : Char)
    (visible : isSpace close = false) (other : isNumberChar close = false)
    (notComma : ',' ≠ close) {items : List Item} (nonempty : items ≠ [])
    (opens : ∀ item ∈ items, Opens close (writeItem item)) {fuel : ℕ}
    (reads : ∀ item ∈ items, (writeItem item).length < fuel → Reads read (writeItem item) item)
    (enough : (join separators (items.map writeItem)).length < fuel) (rest : List Char) :
    ∃ char others, join separators (items.map writeItem) ++ close :: rest = char :: others ∧
      isSpace char = false ∧ char ≠ close ∧
      readSequence read close fuel (char :: others) = some (items, rest) := by
  have mapOpens : ∀ text ∈ items.map writeItem, Opens close text := by
    intro text isText
    rcases List.mem_map.mp isText with ⟨item, isItem, rfl⟩
    exact opens item isItem
  have texts : ∀ text ∈ items.map writeItem, text ≠ [] := by
    intro text isText
    rcases mapOpens text isText with ⟨char, rest, rfl, _⟩
    exact List.cons_ne_nil _ _
  rcases fits_of_join separators texts enough with ⟨counted, fits⟩
  rw [List.length_map] at counted
  have readsEach : ∀ item ∈ items, Reads read (writeItem item) item :=
    fun item isItem => reads item isItem (fits _ (List.mem_map_of_mem isItem))
  have sequence := readSequence_join read separators writeItem close visible other notComma
    nonempty readsEach counted rest [] rfl
  rw [List.nil_append] at sequence
  rcases Opens.join separators (by simpa using nonempty) mapOpens with
    ⟨char, others, joined, charVisible, notClosing⟩
  rw [joined, List.cons_append] at sequence ⊢
  exact ⟨char, others ++ close :: rest, rfl, charVisible, notClosing, sequence⟩

/-- An array reads back if its items do. -/
theorem readsBack_array {floats : FloatText Number} {separators : Separators}
    {items : List (Json Number)} (each : ∀ item ∈ items, WellFormed floats item)
    (readsBack : ∀ item ∈ items, ReadsBack floats separators item) :
    ReadsBack floats separators (.array items) := by
  intro fuel rest enough ends
  have shape : write floats separators (.array items) ++ rest =
      '[' :: (join separators (items.map (write floats separators)) ++ ']' :: rest) := by
    simp [write, writeItems_eq_map]
  rw [shape, readValue, skipSpace_cons rfl]
  cases items with
  | nil => rfl
  | cons item items =>
      have inside : (join separators ((item :: items).map (write floats separators))).length <
          fuel := by
        simp only [write, writeItems_eq_map, List.length_cons, List.length_append,
          List.length_nil] at enough
        omega
      rcases readSequence_items (readValue floats fuel) separators (write floats separators) ']'
        rfl rfl (by decide) (List.cons_ne_nil item items)
        (fun value isItem => opens_write (each value isItem) separators)
        (fun value isItem => (readsBack value isItem).reads) inside rest with
        ⟨char, others, joined, visible, notClosing, sequence⟩
      rw [joined]
      simp only [skipSpace_cons visible]
      split
      · rename_i same
        exact absurd (List.cons.inj same).1 notClosing
      · rw [sequence, Option.map_some]

/-- An object with distinct keys reads back if its values do. -/
theorem readsBack_object {floats : FloatText Number} {separators : Separators}
    {members : List (String × Json Number)} (unique : (members.map Prod.fst).Nodup)
    (readsBack : ∀ member ∈ members, ReadsBack floats separators member.2) :
    ReadsBack floats separators (.object members) := by
  intro fuel rest enough ends
  let writeOne : String × Json Number → List Char := fun member =>
    writeMember separators member.1 (write floats separators member.2)
  have shape : write floats separators (.object members) ++ rest =
      '{' :: (join separators (members.map writeOne) ++ '}' :: rest) := by
    simp [write, writeMembers_eq_map, writeOne]
  rw [shape, readValue, skipSpace_cons rfl]
  cases members with
  | nil => rfl
  | cons member members =>
      have inside : (join separators ((member :: members).map writeOne)).length < fuel := by
        simp only [write, writeMembers_eq_map, List.length_cons, List.length_append,
          List.length_nil] at enough
        simp only [writeOne]
        omega
      rcases readSequence_items (readMember (readValue floats fuel)) separators writeOne '}'
        rfl rfl (by decide) (List.cons_ne_nil member members)
        (fun other _ => ⟨_, _, rfl, rfl, by decide⟩)
        (fun other isMember fits => readMember_write separators other.1
          ((readsBack other isMember).reads (by
            simp only [writeOne, writeMember, List.length_append] at fits
            omega))) inside rest with
        ⟨char, others, joined, visible, notClosing, sequence⟩
      rw [joined]
      simp only [skipSpace_cons visible]
      split
      · rename_i same
        exact absurd (List.cons.inj same).1 notClosing
      · rw [sequence, Option.map_some, ofMembers_of_nodup unique]

/-- A well-formed value is read from its text, with any rest that does not continue a number. -/
theorem readsBack_of_wellFormed {floats : FloatText Number} {value : Json Number}
    (wellFormed : WellFormed floats value) (separators : Separators) :
    ReadsBack floats separators value := by
  induction wellFormed with
  | null =>
      intro fuel rest enough ends
      rfl
  | bool value =>
      intro fuel rest enough ends
      cases value with
      | true => rfl
      | false => rfl
  | int value =>
      intro fuel rest enough ends
      rcases opens_write (show WellFormed floats (.int value) from .int value) separators with
        ⟨char, others, written, _⟩
      have isNumber : isNumberChar char = true := by
        apply isNumberChar_of_mem_toString value
        rw [write] at written
        rw [written]
        exact List.mem_cons_self
      rw [written, List.cons_append, readValue_number floats fuel isNumber, ← List.cons_append,
        ← written]
      exact readNumber_int floats value ends
  | float value prints =>
      intro fuel rest enough ends
      rcases List.exists_cons_of_ne_nil prints.nonempty with ⟨char, others, written⟩
      have isNumber : isNumberChar char = true := by
        apply prints.token
        rw [written]
        exact List.mem_cons_self
      rw [write, written, List.cons_append, readValue_number floats fuel isNumber,
        ← List.cons_append, ← written]
      exact readNumber_float prints ends
  | string text =>
      intro fuel rest enough ends
      have shape : write floats separators (.string text) ++ rest =
          '"' :: (text.toList.flatMap writeChar ++ '"' :: rest) := by
        simp [write, writeString]
      rw [shape, readValue, skipSpace_cons rfl]
      simp only [readString_write, Option.map_some]
  | array items each ih => exact readsBack_array each ih
  | object members unique each ih => exact readsBack_object unique ih

/-- Reading undoes writing. -/
theorem loads_dumps {floats : FloatText Number} {value : Json Number}
    (wellFormed : WellFormed floats value) (separators : Separators) :
    loads floats (dumps floats separators value) = some value := by
  have read := readsBack_of_wellFormed wellFormed separators
    (write floats separators value).length [] (Nat.le_refl _) (by rintro _ ⟨⟩)
  rw [List.append_nil] at read
  simp only [loads, dumps, String.toList_ofList, read]
  rfl

/-- The text of a well-formed value determines it. -/
theorem dumps_injective {floats : FloatText Number} {left right : Json Number}
    (leftFormed : WellFormed floats left) (rightFormed : WellFormed floats right)
    {separators : Separators}
    (same : dumps floats separators left = dumps floats separators right) : left = right := by
  have read := loads_dumps leftFormed separators
  rw [same, loads_dumps rightFormed separators] at read
  exact (Option.some.inj read).symm

end VisionApi.Foundation.Json

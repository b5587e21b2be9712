import Mathlib
import WorkflowPolicy.Json.Read
import WorkflowPolicy.Json.Write
import WorkflowPolicy.Proofs.Net.Port

/-!
# JSON is read back as it is written

What `Json.pretty` writes, `Json.parse?` reads back (`Json.parse?_pretty`), as long as the numbers
are whole and fit in 64 bits. Floating point numbers are left out: their shortest digits are chosen
to be read back, but that is a theorem about rounding and not about JSON.

The reader has fuel, at least twice the number of the characters that it has still to read. So what
is proved of a value (`Json.ReadsBack`) holds at every level of the printed text, whatever follows,
and with any fuel that is enough for the text of the value; it is shown for a collection from the
same of its parts. Only a number has to know where it ends (`Json.Ends`).
-/

namespace WorkflowPolicy.Json

/-! ### Texts -/

/-- **The piece for a character**: it is what is read of the character as it is written, and it
stands for the character whatever the pieces behind it are. -/
structure IsPiece (c : Char) (piece : Piece) : Prop where
  read : ∀ rest, readPieces? (escapedChar c ++ rest) =
    (readPieces? rest).map fun r => (piece :: r.1, r.2)
  stands : ∀ pieces, characters (piece :: pieces) = (c :: ·) <$> characters pieces

/-- A control character is one unit, which is read from its four digits. -/
theorem readPieces?_controlEscape {c : Char} (h : c.toNat < 0x20) (rest : List Char) :
    readPieces? (controlEscape c ++ rest) =
      (readPieces? rest).map fun r => (.unit c.toNat :: r.1, r.2) := by
  -- There are only 32 of them, and the last two digits say which.
  have hescape : ∀ n < 0x20, controlEscape (Char.ofNat n) =
      ['\\', 'u', '0', '0', Nat.digitChar (n / 16), Nat.digitChar (n % 16)] := by decide
  have hunit : ∀ n < 0x20,
      hexFour? '0' '0' (Nat.digitChar (n / 16)) (Nat.digitChar (n % 16)) = some n := by decide
  have hc := hescape c.toNat h
  rw [Char.ofNat_toNat] at hc
  rw [hc]
  simp only [List.cons_append, List.nil_append, readPieces?, hunit c.toNat h]

/-- A unit below the surrogates stands for itself. -/
theorem characters_unit {c : Char} (h : c.toNat < 0xD800) (pieces : List Piece) :
    characters (.unit c.toNat :: pieces) = (c :: ·) <$> characters pieces := by
  have hunit : c.toNat < 0xD800 ∨ 0xDFFF < c.toNat := .inl h
  rw [characters.eq_def]
  simp only [if_pos hunit, Char.ofNat_toNat]

theorem exists_isPiece (c : Char) : ∃ piece, IsPiece c piece := by
  -- Control characters without a letter of their own are written by their number.
  by_cases hunit : escapedChar c = controlEscape c ∧ c.toNat < 0x20
  · refine ⟨.unit c.toNat, fun rest => ?_, characters_unit (by omega)⟩
    rw [hunit.1]
    exact readPieces?_controlEscape hunit.2 rest
  · refine ⟨.char c, fun rest => ?_, fun pieces => by rw [characters]⟩
    unfold escapedChar at hunit ⊢
    split
    iterate 7 rfl
    · -- Any other character stands for itself, and it is neither a quote nor a backslash.
      split
      · next h => simp_all
      · next h =>
        rw [List.singleton_append, readPieces?.eq_def]
        split <;> simp_all

/-- **A text is read back as it is quoted.** -/
theorem readText?_flatMap (s rest : List Char) :
    readText? (s.flatMap escapedChar ++ '"' :: rest) = some (.ok (String.ofList s), rest) := by
  have hpieces : ∃ pieces, readPieces? (s.flatMap escapedChar ++ '"' :: rest) =
      some (pieces, rest) ∧ characters pieces = .ok s := by
    -- On the text: the piece of a character stands in front of those of the characters behind it.
    induction s with
    | nil => exact ⟨[], rfl, by rw [characters]⟩
    | cons c s ih =>
      obtain ⟨pieces, hread, hcharacters⟩ := ih
      obtain ⟨piece, hpiece⟩ := exists_isPiece c
      refine ⟨piece :: pieces, ?_, ?_⟩
      · rw [List.flatMap_cons, List.append_assoc, hpiece.read, hread]
        rfl
      · rw [hpiece.stands, hcharacters]
        rfl
  obtain ⟨pieces, hread, hcharacters⟩ := hpieces
  rw [readText?, hread, Option.map_some, hcharacters]
  rfl

/-! ### Numbers -/

/-- What may follow a number: nothing that continues it. -/
def Ends (rest : List Char) : Prop :=
  ∀ c ∈ rest.head?, Text.isDigit c = false ∧ c ≠ '.' ∧ c ≠ 'e' ∧ c ≠ 'E'

theorem readParts?_append {digits rest : List Char} (hne : digits ≠ [])
    (hdigits : ∀ c ∈ digits, Text.isDigit c = true)
    (hzero : digits.head? = some '0' → digits.length = 1) (hrest : Ends rest) :
    readParts? (digits ++ rest) = some ⟨digits, none, none, rest⟩ := by
  have htake : (digits ++ rest).takeWhile Text.isDigit = digits := by
    have hstop : rest.takeWhile Text.isDigit = [] := by
      cases rest with
      | nil => rfl
      | cons c rest => rw [List.takeWhile_cons_of_neg (by simp [(hrest c rfl).1])]
    rw [List.takeWhile_append_of_pos hdigits, hstop, List.append_nil]
  have hdrop : (digits ++ rest).dropWhile Text.isDigit = rest := by
    have hcut := List.takeWhile_append_dropWhile (p := Text.isDigit) (l := digits ++ rest)
    rw [htake] at hcut
    exact List.append_cancel_left hcut
  have hwhole : (digits.isEmpty || (digits.head? == some '0' && 1 < digits.length)) = false := by
    rw [Bool.or_eq_false_iff, List.isEmpty_eq_false_iff, Bool.and_eq_false_imp, beq_iff_eq]
    exact ⟨hne, fun h => by simp [hzero h]⟩
  rw [readParts?, htake, hdrop]
  simp only [hwhole]
  -- Nothing continues the digits, so there is neither a fraction nor an exponent.
  cases rest with
  | nil => rfl
  | cons c rest =>
    obtain ⟨-, hpoint, hsmall, hcapital⟩ := hrest c rfl
    split <;> simp_all

theorem digitsValue_toDigits (n : Nat) : Decimal.digitsValue (Nat.toDigits 10 n) = n :=
  Nat.ofDigitChars_ten_toDigits

theorem readParts?_toDigits (n : Nat) {rest : List Char} (hrest : Ends rest) :
    readParts? (Nat.toDigits 10 n ++ rest) = some ⟨Nat.toDigits 10 n, none, none, rest⟩ := by
  refine readParts?_append Nat.toDigits_ne_nil ?_ (fun hzero => ?_) hrest
  · exact fun c hc => Nat.isDigit_of_mem_toDigits (by decide) (by decide) hc
  · -- Only zero itself has a zero in front.
    have hn : n = 0 := by
      by_contra hpos
      exact Text.head?_toDigits (Nat.pos_of_ne_zero hpos) hzero
    subst hn
    rfl

theorem readNumber?_natCast {n : Nat} (h : n < 2 ^ 64) {rest : List Char} (hrest : Ends rest) :
    readNumber? (Nat.toDigits 10 n ++ rest) = some (.int n, rest) := by
  rw [readNumber?, readParts?_toDigits n hrest]
  · simpa [digitsValue_toDigits] using h
  · -- The first digit is no sign.
    intro cs hminus
    cases hdigits : Nat.toDigits 10 n with
    | nil => exact Nat.toDigits_ne_nil hdigits
    | cons d ds =>
      rw [hdigits] at hminus
      have hdigit : d.isDigit = true :=
        Nat.isDigit_of_mem_toDigits (by decide) (by decide) (hdigits ▸ List.mem_cons_self)
      rw [(List.cons.inj hminus).1] at hdigit
      cases hdigit

theorem readNumber?_negSucc {n : Nat} (h : n < 2 ^ 63) {rest : List Char} (hrest : Ends rest) :
    readNumber? ('-' :: (Nat.toDigits 10 (n + 1) ++ rest)) = some (.int (.negSucc n), rest) := by
  have hsize : n + 1 ≤ Nat.pow 2 63 := h
  rw [readNumber?, readParts?_toDigits (n + 1) hrest]
  simp only [Option.bind_eq_bind, Option.bind_some, digitsValue_toDigits]
  rw [if_neg (by simp), if_pos (by simpa using h)]
  rfl

/-- **A whole number is read back as it is written.** -/
theorem readNumber?_toString {n : Int} (h : -2 ^ 63 ≤ n ∧ n < 2 ^ 64) {rest : List Char}
    (hrest : Ends rest) : readNumber? ((toString n).toList ++ rest) = some (.int n, rest) := by
  cases n with
  | ofNat n =>
    have htext : (toString (Int.ofNat n)).toList = Nat.toDigits 10 n := Nat.toList_repr
    rw [htext]
    exact readNumber?_natCast (by simp at h; omega) hrest
  | negSucc n =>
    have htext : (toString (Int.negSucc n)).toList = '-' :: Nat.toDigits 10 (n + 1) := by
      change ("-" ++ Nat.repr (n + 1)).toList = _
      rw [String.toList_append, Nat.toList_repr]
      rfl
    rw [htext]
    exact readNumber?_negSucc (by omega) hrest

/-! ### Blanks -/

theorem readValue?_congr {s s' : List Char} (h : skipSpace s = skipSpace s') (fuel : Nat) :
    readValue? fuel s = readValue? fuel s' := by
  cases fuel with
  | zero => rfl
  | succ fuel => rw [readValue?, readValue?, h]

theorem readItems?_congr {s s' : List Char} (h : skipSpace s = skipSpace s') (fuel : Nat) :
    readItems? fuel s = readItems? fuel s' := by
  cases fuel with
  | zero => rfl
  | succ fuel => rw [readItems?, readItems?, readValue?_congr h]

theorem readMembers?_congr {s s' : List Char} (h : skipSpace s = skipSpace s') (fuel : Nat) :
    readMembers? fuel s = readMembers? fuel s' := by
  cases fuel with
  | zero => rfl
  | succ fuel => rw [readMembers?, readMembers?, h]

theorem skipSpace_skipSpace (s : List Char) : skipSpace (skipSpace s) = skipSpace s := by
  induction s with
  | nil => rfl
  | cons c s ih =>
    by_cases hc : isSpace c = true
    · have hskip : skipSpace (c :: s) = skipSpace s := List.dropWhile_cons_of_pos hc
      rw [hskip, ih]
    · have hstay : skipSpace (c :: s) = c :: s := List.dropWhile_cons_of_neg hc
      rw [hstay, hstay]

theorem skipSpace_indentation (level : Nat) (s : List Char) :
    skipSpace ((indentation level).toList ++ s) = skipSpace s := by
  rw [indentation, String.toList_ofList]
  refine List.dropWhile_append_of_pos fun c hc => ?_
  rw [List.eq_of_mem_replicate hc]
  rfl

/-! ### One step of the reader -/

section Steps

variable {fuel : Nat} {s rest : List Char}

theorem readValue?_blank : readValue? fuel (' ' :: s) = readValue? fuel s := by
  refine readValue?_congr ?_ fuel
  rfl

theorem readItems?_line : readItems? fuel ('\n' :: s) = readItems? fuel s := by
  refine readItems?_congr ?_ fuel
  rfl

theorem readMembers?_line : readMembers? fuel ('\n' :: s) = readMembers? fuel s := by
  refine readMembers?_congr ?_ fuel
  rfl

theorem readValue?_text {text : Quoted} (h : readText? s = some (text, rest)) :
    readValue? (fuel + 1) ('"' :: s) = some (.text text, rest) := by
  change (readText? s).map (fun r => (Node.text r.1, r.2)) = _
  rw [h]
  rfl

theorem readValue?_number {n : Decimal.Number} (h : readNumber? s = some (n, rest)) :
    readValue? (fuel + 1) s = some (.number n, rest) := by
  have hskip : skipSpace s = s := by
    cases s with
    | nil => rfl
    | cons c s =>
      -- A blank begins no number.
      refine List.dropWhile_cons_of_neg fun hspace => ?_
      simp only [isSpace, Bool.or_eq_true, beq_iff_eq] at hspace
      rcases hspace with ((rfl | rfl) | rfl) | rfl <;> cases h
  rw [readValue?, hskip]
  split
  -- What begins like another value does not begin like a number.
  iterate 6 cases h
  rw [h]
  rfl

theorem readValue?_array {items : List Node} (h : readItems? fuel s = some (items, rest)) :
    readValue? (fuel + 1) ('[' :: s) = some (.array items, rest) := by
  have hskip : skipSpace ('[' :: s) = '[' :: s := rfl
  rw [← readItems?_congr (skipSpace_skipSpace s)] at h
  simp only [readValue?, hskip]
  split
  · -- An item does not begin with the bracket that closes the array.
    next hclose =>
    rw [hclose] at h
    rcases fuel with _ | _ | fuel <;> cases h
  · rw [h]
    rfl

theorem readValue?_object {members : List (Quoted × Node)}
    (h : readMembers? fuel s = some (members, rest)) :
    readValue? (fuel + 1) ('\x7b' :: s) = some (.object members, rest) := by
  have hskip : skipSpace ('\x7b' :: s) = '\x7b' :: s := rfl
  rw [← readMembers?_congr (skipSpace_skipSpace s)] at h
  simp only [readValue?, hskip]
  split
  · -- A member begins with a quote, not with the brace that closes the object.
    next hclose =>
    rw [hclose] at h
    cases fuel <;> cases h
  · rw [h]
    rfl

theorem readItems?_last {item : Node} {tail : List Char}
    (hitem : readValue? fuel s = some (item, tail)) (hclose : skipSpace tail = ']' :: rest) :
    readItems? (fuel + 1) s = some ([item], rest) := by
  rw [readItems?, hitem]
  simp only [hclose]

theorem readItems?_next {item : Node} {items : List Node} {tail tail' : List Char}
    (hitem : readValue? fuel s = some (item, tail)) (hcomma : skipSpace tail = ',' :: tail')
    (hitems : readItems? fuel tail' = some (items, rest)) :
    readItems? (fuel + 1) s = some (item :: items, rest) := by
  rw [readItems?, hitem]
  simp only [hcomma, hitems, Option.map_some]

theorem readMembers?_last {key : Quoted} {value : Node} {s' afterKey tail : List Char}
    (hkey : readText? s' = some (key, ':' :: afterKey))
    (hvalue : readValue? fuel afterKey = some (value, tail))
    (hclose : skipSpace tail = '\x7d' :: rest) :
    readMembers? (fuel + 1) ('"' :: s') = some ([(key, value)], rest) := by
  have hstay : ∀ t, skipSpace (':' :: t) = ':' :: t := fun _ => rfl
  have hquote : ∀ t, skipSpace ('"' :: t) = '"' :: t := fun _ => rfl
  simp only [readMembers?, hquote, hkey, hstay, hvalue, hclose]

theorem readMembers?_next {key : Quoted} {value : Node} {members : List (Quoted × Node)}
    {s' afterKey tail tail' : List Char} (hkey : readText? s' = some (key, ':' :: afterKey))
    (hvalue : readValue? fuel afterKey = some (value, tail))
    (hcomma : skipSpace tail = ',' :: tail')
    (hmembers : readMembers? fuel tail' = some (members, rest)) :
    readMembers? (fuel + 1) ('"' :: s') = some ((key, value) :: members, rest) := by
  have hstay : ∀ t, skipSpace (':' :: t) = ':' :: t := fun _ => rfl
  have hquote : ∀ t, skipSpace ('"' :: t) = '"' :: t := fun _ => rfl
  simp only [readMembers?, hquote, hkey, hstay, hvalue, hcomma, hmembers, Option.map_some]

end Steps

/-! ### What has been printed -/

/-- **A value is read as it is printed**, at any level and whatever ends it. -/
def ReadsBack (j : Json) : Prop :=
  ∀ (level fuel : Nat) (rest : List Char), Ends rest →
    2 * (prettyAt level j).toList.length ≤ fuel →
    readValue? (fuel + 1) ((prettyAt level j).toList ++ rest) = some (.ofValue j, rest)

theorem toList_quotedText (s : String) (rest : List Char) :
    (quotedText s).toList ++ rest = '"' :: (s.toList.flatMap escapedChar ++ '"' :: rest) := by
  rw [quotedText, String.toList_ofList, List.cons_append, List.cons_append, List.append_assoc]
  rfl

theorem ends_cons {c : Char} (h : Text.isDigit c = false ∧ c ≠ '.' ∧ c ≠ 'e' ∧ c ≠ 'E')
    (rest : List Char) : Ends (c :: rest) := by
  intro d hd
  rwa [← Option.some.inj hd]

theorem readItems?_prettyItems {items : List Json} (hne : items ≠ [])
    (hitems : ∀ item ∈ items, item.ReadsBack) {level fuel : Nat} {tail rest : List Char}
    (hends : Ends tail) (hclose : skipSpace tail = ']' :: rest)
    (hfuel : 2 * (prettyItems level items).toList.length + 1 ≤ fuel) :
    readItems? (fuel + 1) ((prettyItems level items).toList ++ tail) =
      some (Node.ofItems items, rest) := by
  induction items generalizing fuel with
  | nil => exact absurd rfl hne
  | cons item items ih =>
    -- One unit of fuel is for this step, and what is left is for the item and the items after it.
    obtain ⟨fuel, rfl⟩ := Nat.exists_eq_succ_of_ne_zero (by omega : fuel ≠ 0)
    have hitem := hitems item List.mem_cons_self level fuel
    cases items with
    | nil =>
      have htext : (prettyItems level [item]).toList =
          (indentation level).toList ++ (prettyAt level item).toList := by simp [prettyItems]
      rw [htext, List.length_append] at hfuel
      rw [htext, List.append_assoc, readItems?_congr (skipSpace_indentation level _)]
      exact readItems?_last (hitem tail hends (by omega)) hclose
    | cons next items =>
      have htext : (prettyItems level (item :: next :: items)).toList =
          (indentation level).toList ++ ((prettyAt level item).toList ++
            ',' :: '\n' :: (prettyItems level (next :: items)).toList) := by simp [prettyItems]
      rw [htext, List.length_append, List.length_append, List.length_cons,
        List.length_cons] at hfuel
      have hnext : readItems? (fuel + 1) ((prettyItems level (next :: items)).toList ++ tail) =
          some (Node.ofItems (next :: items), rest) :=
        ih (List.cons_ne_nil _ _) (fun j hj => hitems j (List.mem_cons_of_mem _ hj)) (by omega)
      rw [htext, List.append_assoc, List.append_assoc,
        readItems?_congr (skipSpace_indentation level _)]
      -- The item ends at the comma.
      refine readItems?_next (hitem _ (ends_cons (by decide) _) (by omega)) rfl ?_
      exact readItems?_line.trans hnext

theorem readMembers?_prettyMembers {members : List (String × Json)} (hne : members ≠ [])
    (hmembers : ∀ member ∈ members, member.2.ReadsBack) {level fuel : Nat}
    {tail rest : List Char} (hends : Ends tail) (hclose : skipSpace tail = '\x7d' :: rest)
    (hfuel : 2 * (prettyMembers level members).toList.length + 1 ≤ fuel) :
    readMembers? (fuel + 1) ((prettyMembers level members).toList ++ tail) =
      some (Node.ofMembers members, rest) := by
  induction members generalizing fuel with
  | nil => exact absurd rfl hne
  | cons member members ih =>
    obtain ⟨key, value⟩ := member
    -- As with items, one unit of fuel is for this step.
    obtain ⟨fuel, rfl⟩ := Nat.exists_eq_succ_of_ne_zero (by omega : fuel ≠ 0)
    have hvalue : ∀ t, Ends t → 2 * (prettyAt level value).toList.length ≤ fuel →
        readValue? (fuel + 1) ((prettyAt level value).toList ++ t) = some (.ofValue value, t) :=
      hmembers (key, value) List.mem_cons_self level fuel
    have hkey : ∀ t, readText? (key.toList.flatMap escapedChar ++ '"' :: ':' :: t) =
        some (.ok key, ':' :: t) := by
      intro t
      rw [readText?_flatMap, String.ofList_toList]
    cases members with
    | nil =>
      have htext : (prettyMembers level [(key, value)]).toList =
          (indentation level).toList ++ ((quotedText key).toList ++
            ':' :: ' ' :: (prettyAt level value).toList) := by simp [prettyMembers]
      rw [htext, List.length_append, List.length_append, List.length_cons,
        List.length_cons] at hfuel
      rw [htext, List.append_assoc, List.append_assoc,
        readMembers?_congr (skipSpace_indentation level _), toList_quotedText]
      exact readMembers?_last (hkey _)
        (readValue?_blank.trans (hvalue tail hends (by omega))) hclose
    | cons next members =>
      have htext : (prettyMembers level ((key, value) :: next :: members)).toList =
          (indentation level).toList ++ ((quotedText key).toList ++
            ':' :: ' ' :: ((prettyAt level value).toList ++
              ',' :: '\n' :: (prettyMembers level (next :: members)).toList)) := by
        simp [prettyMembers]
      rw [htext, List.length_append, List.length_append, List.length_cons, List.length_cons,
        List.length_append, List.length_cons, List.length_cons] at hfuel
      have hnext : readMembers? (fuel + 1)
          ((prettyMembers level (next :: members)).toList ++ tail) =
            some (Node.ofMembers (next :: members), rest) :=
        ih (List.cons_ne_nil _ _) (fun e he => hmembers e (List.mem_cons_of_mem _ he)) (by omega)
      rw [htext, List.append_assoc, List.append_assoc,
        readMembers?_congr (skipSpace_indentation level _), toList_quotedText, List.cons_append,
        List.cons_append, List.append_assoc]
      -- The value ends at the comma.
      have hends : Ends (',' :: '\n' :: ((prettyMembers level (next :: members)).toList ++ tail)) :=
        ends_cons (by decide) _
      exact readMembers?_next (hkey _)
        (readValue?_blank.trans (hvalue _ hends (by omega))) rfl (readMembers?_line.trans hnext)

/-! ### Whole values -/

/-- **JSON of whole numbers**, each of which fits in 64 bits, with a sign or without. -/
inductive Whole : Json → Prop where
  | null : Whole .null
  | bool (b : Bool) : Whole (.bool b)
  | int {n : Int} (h : -2 ^ 63 ≤ n ∧ n < 2 ^ 64) : Whole (.int n)
  | string (s : String) : Whole (.string s)
  | array {items : List Json} (h : ∀ item ∈ items, Whole item) : Whole (.array items)
  | object {members : List (String × Json)} (h : ∀ member ∈ members, Whole member.2) :
      Whole (.object members)

/-- The end of a collection, on a line of its own. -/
theorem skipSpace_close {close : Char} (hclose : isSpace close = false) (level : Nat)
    (rest : List Char) :
    skipSpace ('\n' :: ((indentation level).toList ++ close :: rest)) = close :: rest := by
  have hline : skipSpace ('\n' :: ((indentation level).toList ++ close :: rest)) =
      skipSpace ((indentation level).toList ++ close :: rest) := rfl
  rw [hline, skipSpace_indentation]
  exact List.dropWhile_cons_of_neg (by simp [hclose])

/-- **Whatever is printed is read back**, by induction on the value. -/
theorem Whole.readsBack {j : Json} (h : j.Whole) : j.ReadsBack := by
  intro level
  induction h generalizing level with
  | null =>
    intro fuel rest _ _
    rw [prettyAt]
    rfl
  | bool b =>
    intro fuel rest _ _
    rw [prettyAt]
    cases b <;> rfl
  | int h =>
    intro fuel rest hends _
    exact readValue?_number (readNumber?_toString h hends)
  | string s =>
    intro fuel rest _ _
    rw [prettyAt, toList_quotedText]
    have htext : readValue? (fuel + 1) ('"' :: (s.toList.flatMap escapedChar ++ '"' :: rest)) =
        some (.text (.ok (String.ofList s.toList)), rest) :=
      readValue?_text (readText?_flatMap s.toList rest)
    rwa [String.ofList_toList] at htext
  | @array items _ ih =>
    intro fuel rest _ hfuel
    cases items with
    | nil =>
      rw [prettyAt]
      rfl
    | cons item items =>
      have htext : (prettyAt level (.array (item :: items))).toList =
          '[' :: '\n' :: ((prettyItems (level + 1) (item :: items)).toList ++
            '\n' :: ((indentation level).toList ++ [']'])) := by simp [prettyAt]
      rw [htext, List.length_cons, List.length_cons, List.length_append] at hfuel
      -- The two characters in front pay for the step into the array.
      obtain ⟨fuel, rfl⟩ := Nat.exists_eq_succ_of_ne_zero (by omega : fuel ≠ 0)
      have hread : 2 * (prettyItems (level + 1) (item :: items)).toList.length + 1 ≤ fuel := by
        omega
      have hitems := readItems?_prettyItems (List.cons_ne_nil _ _)
        (fun j hj level => ih j hj level) (ends_cons (by decide) _)
        (skipSpace_close (by decide) level rest) hread
      rw [htext, List.cons_append, List.cons_append, List.append_assoc, List.cons_append,
        List.append_assoc]
      exact readValue?_array (readItems?_line.trans hitems)
  | @object members _ ih =>
    intro fuel rest _ hfuel
    cases members with
    | nil =>
      rw [prettyAt]
      rfl
    | cons member members =>
      have htext : (prettyAt level (.object (member :: members))).toList =
          '\x7b' :: '\n' :: ((prettyMembers (level + 1) (member :: members)).toList ++
            '\n' :: ((indentation level).toList ++ ['\x7d'])) := by simp [prettyAt]
      rw [htext, List.length_cons, List.length_cons, List.length_append] at hfuel
      -- The brace and the line end pay for the step into the object.
      obtain ⟨fuel, rfl⟩ := Nat.exists_eq_succ_of_ne_zero (by omega : fuel ≠ 0)
      have hread : 2 * (prettyMembers (level + 1) (member :: members)).toList.length + 1 ≤
          fuel := by omega
      have hmembers := readMembers?_prettyMembers (List.cons_ne_nil _ _)
        (fun e he level => ih e he level) (ends_cons (by decide) _)
        (skipSpace_close (by decide) level rest) hread
      rw [htext, List.cons_append, List.cons_append, List.append_assoc, List.cons_append,
        List.append_assoc]
      exact readValue?_object (readMembers?_line.trans hmembers)

/-- **JSON is read back as it is written.** -/
theorem Node.parse?_pretty {j : Json} (h : j.Whole) : Node.parse? j.pretty = some (.ofValue j) := by
  have hvalue := h.readsBack 0 (2 * j.pretty.toList.length + 1) []
    (fun c hc => by cases hc) (Nat.le_succ _)
  rw [List.append_nil] at hvalue
  have hread : readValue? (2 * j.pretty.toList.length + 2) j.pretty.toList =
      some (.ofValue j, []) := hvalue
  simp only [Node.parse?, hread]
  rfl

mutual

/-- The tree of a value has that value. -/
theorem Node.value?_ofValue (j : Json) : (Node.ofValue j).value? = some j := by
  cases j with
  | null | bool | number | string => rfl
  | array items => rw [Node.ofValue, Node.value?, Node.itemsOf?_ofItems items, Option.map_some]
  | object members =>
    rw [Node.ofValue, Node.value?, Node.membersOf?_ofMembers members, Option.map_some]

theorem Node.itemsOf?_ofItems (items : List Json) :
    Node.itemsOf? (Node.ofItems items) = some items := by
  cases items with
  | nil => rfl
  | cons item items =>
    rw [Node.ofItems, Node.itemsOf?, Node.value?_ofValue item, Node.itemsOf?_ofItems items]
    rfl

theorem Node.membersOf?_ofMembers (members : List (String × Json)) :
    Node.membersOf? (Node.ofMembers members) = some members := by
  cases members with
  | nil => rfl
  | cons member members =>
    obtain ⟨key, value⟩ := member
    rw [Node.ofMembers, Node.membersOf?, Node.value?_ofValue value,
      Node.membersOf?_ofMembers members]
    rfl

end

/-- So the value is read back. -/
theorem parse?_pretty {j : Json} (h : j.Whole) : parse? j.pretty = some j := by
  rw [parse?, Node.parse?_pretty h, Option.bind_some, Node.value?_ofValue]

end WorkflowPolicy.Json

import Mathlib
import WorkflowPolicy.Net.Cidr
import WorkflowPolicy.Proofs.Net.Port
import WorkflowPolicy.Proofs.Text.Cutting

/-!
# A block of addresses and its text

`Cidr.text` writes every block in one form, and `Cidr.text_injective` says that no two blocks have
the same text, so blocks may be compared as texts.

An IPv6 address is written without its longest run of zero groups. How long the run was is not
written down, but there are eight groups in all: `expand` takes the pieces before and after the gap
and puts zeros between them (`expand_splitAll`). An address that stands for an IPv4 one is told from
the others by its points, and an IPv4 address has no colons.
-/

namespace WorkflowPolicy

/-! ### Hexadecimal digits -/

namespace Text

theorem digitsAfter?_concat {base n : ℕ} {c : Char} (s : List Char) :
    digitsAfter? base n (s ++ [c]) =
      (digitsAfter? base n s).bind fun m => (digitValue? base c).map (m * base + ·) := by
  induction s generalizing n with
  | nil => cases hc : digitValue? base c <;> simp [digitsAfter?, hc]
  | cons d s ih => cases hd : digitValue? base d <;> simp [digitsAfter?, hd, ih]

/-- Only digits are read. -/
theorem isSome_digitValue? {base n m : ℕ} {s : List Char} (h : digitsAfter? base n s = some m)
    {c : Char} (hc : c ∈ s) : (digitValue? base c).isSome := by
  induction s generalizing n with
  | nil => cases hc
  | cons d s ih =>
    cases hd : digitValue? base d with
    | none => simp [digitsAfter?, hd] at h
    | some v =>
      simp only [digitsAfter?, hd] at h
      -- Each of the characters has been read on the way to the result.
      rcases List.mem_cons.mp hc with rfl | hmem
      · rw [hd]
        rfl
      · exact ih h hmem

theorem digitValue?_digitChar : ∀ d < 16, digitValue? 16 (Nat.digitChar d) = some d := by
  decide

/-- **Hexadecimal digits are read back** as the number that they write. -/
theorem digitsAfter?_toDigits (n : ℕ) : digitsAfter? 16 0 (Nat.toDigits 16 n) = some n := by
  -- The last digit is the remainder, and the digits before it write the quotient.
  induction n using Nat.strongRecOn with
  | ind n ih =>
    rw [Nat.toDigits_eq_if (by decide)]
    split
    · next hlt => simp [digitsAfter?, digitValue?_digitChar n hlt]
    · next hle =>
      rw [digitsAfter?_concat, ih (n / 16) (by omega), Option.bind_some,
        digitValue?_digitChar _ (Nat.mod_lt n (by decide)), Option.map_some, Nat.div_add_mod']

theorem toDigits_sixteen_injective : Function.Injective (Nat.toDigits 16) := by
  intro n m h
  have hn := digitsAfter?_toDigits n
  rw [h, digitsAfter?_toDigits] at hn
  exact (Option.some.inj hn).symm

/-! ### Joined texts -/

/-- A character of a joined text is one of a piece or of the separator. -/
theorem of_mem_joined {sep : String} {pieces : List String} {c : Char}
    (h : c ∈ (joined sep pieces).toList) : c ∈ sep.toList ∨ ∃ piece ∈ pieces, c ∈ piece.toList := by
  induction pieces with
  | nil => simp [joined] at h
  | cons piece pieces ih =>
    cases pieces with
    | nil => exact .inr ⟨piece, List.mem_cons_self, h⟩
    | cons next pieces =>
      -- The separator stands between the first piece and the others.
      have hparts : (c ∈ piece.toList ∨ c ∈ sep.toList) ∨
          c ∈ (joined sep (next :: pieces)).toList := by
        simpa only [joined, String.toList_append, List.mem_append] using h
      rcases hparts with (hpiece | hsep) | hrest
      · exact .inr ⟨piece, List.mem_cons_self, hpiece⟩
      · exact .inl hsep
      · rcases ih hrest with hsep | ⟨other, hother, hmem⟩
        · exact .inl hsep
        · exact .inr ⟨other, List.mem_cons_of_mem piece hother, hmem⟩

/-- Pieces without the separator are the pieces of the joined text. -/
theorem splitAll_joined_of_not_mem {sep : Char} {text : String} (htext : text.toList = [sep])
    {pieces : List String} (hne : pieces ≠ []) (h : ∀ piece ∈ pieces, sep ∉ piece.toList) :
    splitAll sep (joined text pieces).toList = pieces.map String.toList := by
  have hpieces : ∀ piece ∈ pieces, splitAll sep piece.toList = [piece.toList] :=
    fun piece hpiece => splitAll_of_not_mem (h piece hpiece)
  rw [splitAll_joined htext hne, List.flatMap_congr hpieces, ← List.map_eq_flatMap]

/-- **Pieces without the separator are determined by the joined text.** -/
theorem joined_injective {sep : Char} {text : String} (htext : text.toList = [sep])
    {pieces pieces' : List String} (hne : pieces ≠ []) (hne' : pieces' ≠ [])
    (h : ∀ piece ∈ pieces, sep ∉ piece.toList) (h' : ∀ piece ∈ pieces', sep ∉ piece.toList)
    (heq : joined text pieces = joined text pieces') : pieces = pieces' := by
  have hsplit := splitAll_joined_of_not_mem htext hne h
  rw [heq, splitAll_joined_of_not_mem htext hne' h'] at hsplit
  exact (List.map_injective_iff.mpr (fun _ _ => String.toList_inj.mp) hsplit).symm

end Text

namespace Net.Cidr

/-! ### Groups -/

theorem toList_textOfGroup (group : UInt16) :
    (textOfGroup group).toList = Nat.toDigits 16 group.toNat := String.toList_ofList

theorem textOfGroup_injective : Function.Injective textOfGroup := by
  intro g g' h
  have hdigits : Nat.toDigits 16 g.toNat = Nat.toDigits 16 g'.toNat := by
    rw [← toList_textOfGroup, h, toList_textOfGroup]
  exact UInt16.toNat_inj.mp (Text.toDigits_sixteen_injective hdigits)

/-- A group is written with hexadecimal digits. -/
theorem isSome_digitValue?_of_mem_textOfGroup {group : UInt16} {c : Char}
    (h : c ∈ (textOfGroup group).toList) : (Text.digitValue? 16 c).isSome := by
  rw [toList_textOfGroup] at h
  exact Text.isSome_digitValue? (Text.digitsAfter?_toDigits _) h

/-- What is no digit is in no group. -/
theorem not_mem_textOfGroup {c : Char} (hc : Text.digitValue? 16 c = none) (group : UInt16) :
    c ∉ (textOfGroup group).toList := by
  intro h
  have hdigit := isSome_digitValue?_of_mem_textOfGroup h
  rw [hc] at hdigit
  cases hdigit

/-- The digits of groups, one list for each. -/
def pieces (groups : List UInt16) : List (List Char) :=
  groups.map fun group => (textOfGroup group).toList

@[simp] theorem length_pieces (groups : List UInt16) : (pieces groups).length = groups.length :=
  List.length_map _

theorem pieces_injective : Function.Injective pieces :=
  List.map_injective_iff.mpr fun _ _ h => textOfGroup_injective (String.toList_inj.mp h)

theorem isEmpty_of_mem_pieces {groups : List UInt16} {piece : List Char}
    (h : piece ∈ pieces groups) : piece.isEmpty = false := by
  obtain ⟨group, -, rfl⟩ := List.mem_map.mp h
  rw [toList_textOfGroup, List.isEmpty_eq_false_iff]
  exact Nat.toDigits_ne_nil

/-- Cutting groups at their colons; without groups there is one piece, which is empty. -/
theorem splitAll_textOfGroups (groups : List UInt16) :
    Text.splitAll ':' (textOfGroups groups).toList =
      if groups = [] then [[]] else pieces groups := by
  split
  · next hnil => subst hnil; rfl
  · next hne =>
    have hplain : ∀ piece ∈ groups.map textOfGroup, ':' ∉ piece.toList := by
      intro piece hpiece
      obtain ⟨group, -, rfl⟩ := List.mem_map.mp hpiece
      exact not_mem_textOfGroup (by decide) group
    rw [textOfGroups, Text.splitAll_joined_of_not_mem (by decide) (by simpa using hne) hplain,
      List.map_map]
    rfl

/-! ### IPv6 addresses -/

/-- Where the zeros are that may be left out. -/
theorem longestZeros_spec (index : ℕ) (groups : List UInt16) : ∃ front back,
    groups = front ++ List.replicate (longestZeros index groups).2 0 ++ back ∧
      (longestZeros index groups).1 = index + front.length := by
  induction groups generalizing index with
  | nil => exact ⟨[], [], rfl, rfl⟩
  | cons group groups ih =>
    rw [longestZeros]
    split
    · -- Either a longer run begins further on, or the run is the one at the front.
      obtain ⟨front, back, hgroups, hindex⟩ := ih (index + 1)
      refine ⟨group :: front, back, ?_, ?_⟩
      · rw [List.cons_append, List.cons_append, ← hgroups]
      · rw [hindex, List.length_cons]
        omega
    · -- The run is what is taken from the front of the list.
      have hzeros : (group :: groups).takeWhile (· == 0) =
          List.replicate (leadingZeros (group :: groups)) 0 := by
        refine List.eq_replicate_iff.mpr ⟨rfl, fun g hg => ?_⟩
        simpa using List.mem_takeWhile_imp hg
      refine ⟨[], (group :: groups).dropWhile (· == 0), ?_, rfl⟩
      rw [List.nil_append, ← hzeros, List.takeWhile_append_dropWhile]

/-- **An address that stands for an IPv4 one.** -/
def IsMapped (groups : List UInt16) : Prop :=
  ∃ high low, groups = [0, 0, 0, 0, 0, 0xFFFF, high, low]

/-- How an address that stands for no other is written: with all its groups, or without a run of
zeros. -/
theorem textOfV6_cases {groups : List UInt16} (h : ¬ IsMapped groups) :
    textOfV6 groups = textOfGroups groups ∨ ∃ front zeros back, 1 < zeros ∧
      groups = front ++ List.replicate zeros 0 ++ back ∧
      textOfV6 groups = textOfGroups front ++ "::" ++ textOfGroups back := by
  unfold textOfV6
  split
  · -- An address that stands for an IPv4 one is written in another way.
    next high low => exact absurd ⟨high, low, rfl⟩ h
  · obtain ⟨front, back, hgroups, hindex⟩ := longestZeros_spec 0 groups
    -- From here on only the place and the length of the run matter, not how it has been found.
    generalize longestZeros 0 groups = run at hgroups hindex ⊢
    obtain ⟨start, zeros⟩ := run
    obtain rfl : start = front.length := hindex.trans (Nat.zero_add _)
    dsimp only at hgroups ⊢
    split
    · next hzeros =>
      refine .inr ⟨front, zeros, back, hzeros, hgroups, ?_⟩
      have hlength : front.length + zeros =
          (front ++ List.replicate zeros (0 : UInt16)).length := by
        rw [List.length_append, List.length_replicate]
      have hback : groups.drop (front.length + zeros) = back := by
        rw [hgroups, hlength, List.drop_left]
      have hfront : groups.take front.length = front := by
        rw [hgroups, List.append_assoc, List.take_left]
      rw [hfront, hback]
    · exact .inl rfl

/-- **The pieces of all eight groups**, of which those between the first and the last empty piece
may have been left out. -/
def expand (written : List (List Char)) : List (List Char) :=
  let front := written.takeWhile (!·.isEmpty)
  let back := written.rtakeWhile (!·.isEmpty)
  if front.length = 8 then front
  else front ++ List.replicate (8 - front.length - back.length) ['0'] ++ back

theorem takeWhile_pieces (groups : List UInt16) (rest : List (List Char)) :
    (pieces groups ++ [] :: rest).takeWhile (!·.isEmpty) = pieces groups := by
  -- What is written of groups stops at the first empty piece.
  rw [List.takeWhile_append_of_pos fun piece hpiece => by simp [isEmpty_of_mem_pieces hpiece]]
  simp

/-- What is written before a gap. -/
theorem takeWhile_splitAll (groups : List UInt16) (rest : List (List Char)) :
    (Text.splitAll ':' (textOfGroups groups).toList ++ [] :: rest).takeWhile (!·.isEmpty) =
      pieces groups := by
  rw [splitAll_textOfGroups]
  split
  · next hnil => subst hnil; rfl
  · exact takeWhile_pieces groups rest

/-- What is written behind a gap. -/
theorem rtakeWhile_splitAll (groups : List UInt16) (rest : List (List Char)) :
    (rest ++ [] :: Text.splitAll ':' (textOfGroups groups).toList).rtakeWhile (!·.isEmpty) =
      pieces groups := by
  rw [splitAll_textOfGroups]
  split
  · next hnil => subst hnil; simp [List.rtakeWhile, pieces]
  · -- Reading from behind is reading the reverse from the front.
    have hreverse : (rest ++ [] :: pieces groups).reverse =
        pieces groups.reverse ++ [] :: rest.reverse := by simp [pieces]
    rw [List.rtakeWhile, hreverse, takeWhile_pieces, pieces, List.map_reverse, List.reverse_reverse,
      pieces]

/-- **All groups of an address are read from its text**, if it stands for no other. -/
theorem expand_splitAll {groups : List UInt16} (hlength : groups.length = 8)
    (h : ¬ IsMapped groups) :
    expand (Text.splitAll ':' (textOfV6 groups).toList) = pieces groups := by
  rcases textOfV6_cases h with hall | ⟨front, zeros, back, hzeros, rfl, hgap⟩
  · -- No piece is empty, so all are taken from the front.
    have hne : groups ≠ [] := by
      rintro rfl
      cases hlength
    have hfront : (pieces groups).takeWhile (!·.isEmpty) = pieces groups :=
      List.takeWhile_eq_self_iff.mpr fun piece hpiece => by simp [isEmpty_of_mem_pieces hpiece]
    rw [hall, splitAll_textOfGroups, if_neg hne, expand, hfront,
      if_pos ((length_pieces groups).trans hlength)]
  · have hcut : Text.splitAll ':' (textOfV6 (front ++ List.replicate zeros 0 ++ back)).toList =
        Text.splitAll ':' (textOfGroups front).toList ++
          [] :: Text.splitAll ':' (textOfGroups back).toList := by
      have hlist : (textOfGroups front ++ "::" ++ textOfGroups back).toList =
          (textOfGroups front).toList ++ ':' :: ':' :: (textOfGroups back).toList := by simp
      rw [hgap, hlist, Text.splitAll_append_cons, Text.splitAll, if_pos rfl]
    -- There are eight groups, so the length of the run is known.
    have hsum : front.length + zeros + back.length = 8 := by
      rw [← hlength, List.length_append, List.length_append, List.length_replicate]
    have hrun : 8 - (pieces front).length - (pieces back).length = zeros := by
      rw [length_pieces, length_pieces]
      omega
    -- The run has more than one group, so not all of the eight stand before it.
    have hshort : (pieces front).length ≠ 8 := by
      rw [length_pieces]
      omega
    rw [hcut, expand, takeWhile_splitAll, rtakeWhile_splitAll, if_neg hshort, hrun]
    show pieces front ++ List.replicate zeros (textOfGroup 0).toList ++ pieces back = _
    rw [pieces, pieces, pieces, List.map_append, List.map_append, List.map_replicate]

/-! ### Numbers with points -/

/-- Decimal numbers with points between them. -/
def dotted (numbers : List ℕ) : String := Text.joined "." (numbers.map toString)

/-- What is neither a digit nor a point is in no dotted text. -/
theorem not_mem_dotted {c : Char} (hdigit : c.isDigit = false) (hpoint : c ≠ '.')
    (numbers : List ℕ) : c ∉ (dotted numbers).toList := by
  intro h
  -- All characters are digits of a number or points.
  rcases Text.of_mem_joined h with hsep | ⟨piece, hpiece, hmem⟩
  · exact hpoint (by simpa using hsep)
  · obtain ⟨n, -, rfl⟩ := List.mem_map.mp hpiece
    rw [Text.isDigit_of_mem_toString hmem] at hdigit
    cases hdigit

/-- **Numbers are read back from a dotted text.** -/
theorem dotted_injective {numbers numbers' : List ℕ} (hne : numbers ≠ []) (hne' : numbers' ≠ [])
    (h : dotted numbers = dotted numbers') : numbers = numbers' := by
  have hplain : ∀ numbers : List ℕ, ∀ piece ∈ numbers.map toString, '.' ∉ piece.toList := by
    intro numbers piece hpiece hmem
    obtain ⟨n, -, rfl⟩ := List.mem_map.mp hpiece
    exact absurd (Text.isDigit_of_mem_toString hmem) (by decide)
  have htexts : numbers.map toString = numbers'.map toString :=
    Text.joined_injective (by decide) (by simpa using hne) (by simpa using hne')
      (hplain numbers) (hplain numbers') h
  exact List.map_injective_iff.mpr (fun _ _ => Nat.repr_inj.mp) htexts

theorem textOfV4_eq (octets : Vector UInt8 4) :
    textOfV4 octets = dotted (octets.toList.map UInt8.toNat) := by
  rw [textOfV4, dotted, List.map_map]
  rfl

theorem textOfV4_injective : Function.Injective textOfV4 := by
  intro octets octets' h
  have hne : ∀ octets : Vector UInt8 4, octets.toList.map UInt8.toNat ≠ [] := by
    intro octets hnil
    have hlength := congrArg List.length hnil
    simp at hlength
  rw [textOfV4_eq, textOfV4_eq] at h
  have hnumbers := dotted_injective (hne octets) (hne octets') h
  exact Vector.toList_inj.mp
    (List.map_injective_iff.mpr (fun _ _ => UInt8.toNat_inj.mp) hnumbers)

/-- The two halves of a group determine it. -/
theorem group_eq_of_halves {g g' : UInt16} (hhigh : (g / 256).toNat = (g' / 256).toNat)
    (hlow : (g % 256).toNat = (g' % 256).toNat) : g = g' := by
  rw [← UInt16.toNat_inj]
  -- A group is 256 times its upper half, and its lower one.
  simp only [UInt16.toNat_div, UInt16.toNat_mod] at hhigh hlow
  have h256 : (256 : UInt16).toNat = 256 := rfl
  rw [h256] at hhigh hlow
  omega

/-- An address that stands for an IPv4 one is written with the numbers of that one. -/
theorem textOfV6_mapped (high low : UInt16) :
    textOfV6 [0, 0, 0, 0, 0, 0xFFFF, high, low] = "::ffff:" ++
      dotted ([high / 256, high % 256, low / 256, low % 256].map UInt16.toNat) := rfl

theorem textOfV6_mapped_injective {high low high' low' : UInt16}
    (h : textOfV6 [0, 0, 0, 0, 0, 0xFFFF, high, low] =
      textOfV6 [0, 0, 0, 0, 0, 0xFFFF, high', low']) : high = high' ∧ low = low' := by
  rw [textOfV6_mapped, textOfV6_mapped, String.append_right_inj] at h
  have hnumbers := dotted_injective (by simp) (by simp) h
  simp only [List.map_cons, List.map_nil, List.cons.injEq, and_true] at hnumbers
  obtain ⟨hhigh, hhigh', hlow, hlow'⟩ := hnumbers
  exact ⟨group_eq_of_halves hhigh hhigh', group_eq_of_halves hlow hlow'⟩

/-! ### All blocks -/

/-- Groups are written without points. -/
theorem point_not_mem_textOfGroups (groups : List UInt16) :
    '.' ∉ (textOfGroups groups).toList := by
  intro h
  rcases Text.of_mem_joined h with hsep | ⟨piece, hpiece, hmem⟩
  · simp at hsep
  · obtain ⟨group, -, rfl⟩ := List.mem_map.mp hpiece
    exact not_mem_textOfGroup (by decide) group hmem

/-- **The points tell** whether an IPv6 address stands for an IPv4 one. -/
theorem point_mem_textOfV6 {groups : List UInt16} :
    '.' ∈ (textOfV6 groups).toList ↔ IsMapped groups := by
  constructor
  · intro hpoint
    -- Otherwise it is written with digits and colons.
    by_contra hmapped
    rcases textOfV6_cases hmapped with hall | ⟨front, zeros, back, -, -, hgap⟩
    · rw [hall] at hpoint
      exact point_not_mem_textOfGroups groups hpoint
    · rw [hgap] at hpoint
      simp [point_not_mem_textOfGroups] at hpoint
  · rintro ⟨high, low, rfl⟩
    simp [textOfV6_mapped, dotted, Text.joined]

/-- **Eight groups are determined by the text of their address.** -/
theorem textOfV6_injective {groups groups' : List UInt16} (hlength : groups.length = 8)
    (hlength' : groups'.length = 8) (h : textOfV6 groups = textOfV6 groups') :
    groups = groups' := by
  -- Only addresses of one kind are compared, since the points tell the kinds apart.
  by_cases hmapped : IsMapped groups
  · have hmapped' : IsMapped groups' := by rwa [← point_mem_textOfV6, ← h, point_mem_textOfV6]
    obtain ⟨high, low, rfl⟩ := hmapped
    obtain ⟨high', low', rfl⟩ := hmapped'
    obtain ⟨rfl, rfl⟩ := textOfV6_mapped_injective h
    rfl
  · have hmapped' : ¬ IsMapped groups' := by rwa [← point_mem_textOfV6, ← h, point_mem_textOfV6]
    have hpieces := expand_splitAll hlength hmapped
    rw [h, expand_splitAll hlength' hmapped'] at hpieces
    exact (pieces_injective hpieces).symm

/-- An IPv6 address has a colon. -/
theorem colon_mem_textOfV6 {groups : List UInt16} (hlength : groups.length = 8) :
    ':' ∈ (textOfV6 groups).toList := by
  by_cases hmapped : IsMapped groups
  · obtain ⟨high, low, rfl⟩ := hmapped
    simp [textOfV6_mapped]
  · rcases textOfV6_cases hmapped with hall | ⟨front, zeros, back, -, -, hgap⟩
    · rw [hall]
      by_contra hcolon
      -- Without a colon there would be one piece, and there are eight.
      have hone := splitAll_textOfGroups groups
      rw [Text.splitAll_of_not_mem hcolon, if_neg (by rintro rfl; cases hlength)] at hone
      have hlengths := congrArg List.length hone
      rw [length_pieces, hlength] at hlengths
      cases hlengths
    · rw [hgap]
      simp

/-- No address is written like one of the other kind. -/
theorem textOfV4_ne_textOfV6 (octets : Vector UInt8 4) (groups : Vector UInt16 8) :
    textOfV4 octets ≠ textOfV6 groups.toList := by
  intro h
  have hcolon : ':' ∈ (textOfV6 groups.toList).toList := colon_mem_textOfV6 (by simp)
  rw [← h, textOfV4_eq] at hcolon
  exact not_mem_dotted (by decide) (by decide) _ hcolon

theorem textOfAddress_injective : Function.Injective textOfAddress := by
  intro a a' h
  cases a with
  | v4 octets =>
    cases a' with
    | v4 octets' => rw [textOfV4_injective h]
    | v6 groups' => exact absurd h (textOfV4_ne_textOfV6 octets groups')
  | v6 groups =>
    cases a' with
    | v4 octets' => exact absurd h.symm (textOfV4_ne_textOfV6 octets' groups)
    | v6 groups' =>
      have hgroups := textOfV6_injective (by simp) (by simp) h
      rw [Vector.toList_inj.mp hgroups]

/-- The address and the length of the prefix stand on both sides of the last slash. -/
theorem splitLast_text (c : Cidr) : Text.splitLast '/' c.text.toList =
    some ((textOfAddress c.address).toList, (toString c.bits).toList) := by
  have hdigits : '/' ∉ (toString c.bits).toList := fun hmem =>
    absurd (Text.isDigit_of_mem_toString hmem) (by decide)
  have hlist : c.text.toList =
      (textOfAddress c.address).toList ++ '/' :: (toString c.bits).toList := by
    simp [Cidr.text]
  rw [hlist, Text.splitLast_append hdigits]

/-- **No two blocks have the same text.** -/
theorem text_injective : Function.Injective Cidr.text := by
  intro c c' h
  have hparts := splitLast_text c
  rw [h, splitLast_text c'] at hparts
  obtain ⟨haddress, hbits⟩ := Prod.mk.inj (Option.some.inj hparts)
  have haddresses : c.address = c'.address :=
    textOfAddress_injective (String.toList_inj.mp haddress.symm)
  have hlengths : c.bits = c'.bits := Nat.repr_inj.mp (String.toList_inj.mp hbits.symm)
  cases c
  cases c'
  exact congrArg₂ Cidr.mk haddresses hlengths

end Net.Cidr

end WorkflowPolicy

import WorkflowPolicy.Proofs.Net.Port
import WorkflowPolicy.Proofs.Text.Cutting

/-!
# The grammar of port specifications

A specification is a number, or a number and the name of a transport protocol with a slash between
them, and blanks may stand around each of the two. `IsSpec` says this of a text without the reader,
and `specs_read_iff` that the reader accepts these texts and no others, as long as the number is
that of a port.

The reader trims the whole text before it cuts it at the first slash, and the two parts afterwards.
The first step makes no difference (`PortSpec.parts_eq`), since a slash is no blank.
-/

namespace WorkflowPolicy

open Net (PortSpec)
open Text (Padded trim splitFirst)

namespace Net

/-! ### The grammar -/

/-- **A number as it may be written**: decimal digits, with a plus sign before them or not. There
may be zeros at the front. -/
def IsNumeral (n : ℕ) (s : List Char) : Prop :=
  ∃ digits, (s = digits ∨ s = '+' :: digits) ∧ digits ≠ [] ∧ (∀ c ∈ digits, c.isDigit = true) ∧
    Nat.ofDigitChars 10 digits 0 = n

/-- The name of a protocol, each of its letters capital or small. -/
def Transport.IsWord (t : Transport) (s : List Char) : Prop :=
  List.Forall₂ (fun c letter => c = letter ∨ c = letter.toLower) s t.name.toList

/-- **A text for the port `n`** with a transport protocol. -/
inductive IsSpec (n : ℕ) : Transport → List Char → Prop where
  /-- A number, which is for TCP. -/
  | bare {number s : List Char} (numeral : IsNumeral n number) (padded : Padded number s) :
    IsSpec n .tcp s
  /-- A number, a slash and a protocol. -/
  | named {t : Transport} {number word front back : List Char} (numeral : IsNumeral n number)
    (isWord : t.IsWord word) (padded : Padded number front) (padded' : Padded word back) :
    IsSpec n t (front ++ '/' :: back)

/-! ### The two parts -/

theorem readPort?_eq_some_iff_isNumeral {s : List Char} {port : Port} :
    readPort? s = some port ↔ IsNumeral port.toNat s := by
  simp only [readPort?_eq_some_iff, Text.digits?_eq_some_iff, IsNumeral]

/-- The numeral of a port holds digits and a plus sign only. -/
theorem IsNumeral.mem {port : Port} {s : List Char} (h : IsNumeral port.toNat s) {c : Char}
    (hc : c ∈ s) : c = '+' ∨ c.isDigit = true := by
  have hread := readPort?_eq_some_iff_isNumeral.mpr h
  exact isDigit_of_readPort? (by rw [hread]; rfl) hc

theorem IsNumeral.isBlank_eq_false {port : Port} {s : List Char} (h : IsNumeral port.toNat s) :
    ∀ c ∈ s, Text.isBlank c = false := by
  intro c hc
  rcases h.mem hc with rfl | hdigit
  · decide
  · exact Text.isBlank_of_isDigit hdigit

theorem IsNumeral.slash_not_mem {port : Port} {s : List Char} (h : IsNumeral port.toNat s) :
    '/' ∉ s := by
  intro hc
  rcases h.mem hc with heq | hdigit
  · cases heq
  · cases hdigit

/-- What becomes a given letter in small form is the letter in one of its two forms. -/
theorem toLower_eq_toLower_iff {c letter : Char} (h : letter.isUpper = true) :
    c.toLower = letter.toLower ↔ c = letter ∨ c = letter.toLower := by
  have hletter : 65 ≤ letter.toNat ∧ letter.toNat ≤ 90 := by
    -- Both sides are about the codes of the letters, and those of capital letters are 32 below the
    -- others.
    simpa [Char.isUpper, UInt32.le_iff_toNat_le] using h
  simp only [← Char.toNat_inj, Text.toNat_toLower, if_pos hletter]
  split <;> omega

namespace Transport

/-- Capital letters in either form are the letters that are the same in small form. -/
theorem forall₂_letter_iff {letters s : List Char}
    (hupper : ∀ letter ∈ letters, letter.isUpper = true) :
    List.Forall₂ (fun c letter => c = letter ∨ c = letter.toLower) s letters ↔
      Text.smallLetters s = Text.smallLetters letters := by
  -- The letters of the name are given, so the induction is on them and the text follows.
  induction letters generalizing s with
  | nil => simp [Text.smallLetters]
  | cons letter letters ih =>
    obtain ⟨hletter, hrest⟩ := List.forall_mem_cons.mp hupper
    cases s with
    | nil => simp [Text.smallLetters]
    | cons c s =>
      have htail := ih (s := s) hrest
      simp only [Text.smallLetters] at htail ⊢
      rw [List.forall₂_cons, ← toLower_eq_toLower_iff hletter, htail, List.map_cons,
        List.map_cons, List.cons.injEq]

/-- **A word for a protocol** is its name up to the case of the letters. -/
theorem isWord_iff {t : Transport} {s : List Char} :
    t.IsWord s ↔ Text.smallLetters s = Text.smallLetters t.name.toList :=
  forall₂_letter_iff (by cases t <;> simp [name, Char.isUpper])

/-- No letter of a word is blank. -/
theorem IsWord.isBlank_eq_false {t : Transport} {s : List Char} (h : t.IsWord s) :
    ∀ c ∈ s, Text.isBlank c = false := by
  -- The name in small letters has no blank, and the word is the same in small letters.
  have hname : ∀ letter ∈ Text.smallLetters t.name.toList, Text.isBlank letter = false := by
    cases t <;> simp [name, Text.smallLetters] <;> decide
  intro c hc
  have hmem : c.toLower ∈ Text.smallLetters s := List.mem_map_of_mem hc
  rw [isWord_iff.mp h] at hmem
  rw [← Text.isBlank_toLower, hname _ hmem]

theorem ofWord?_eq_some_iff {t : Transport} {s : List Char} : ofWord? s = some t ↔ t.IsWord s := by
  have htcp : Text.smallLetters (name .tcp).toList = "tcp".toList := by decide +kernel
  have hudp : Text.smallLetters (name .udp).toList = "udp".toList := by decide +kernel
  rw [isWord_iff, ofWord?, ← htcp, ← hudp]
  by_cases hs : Text.smallLetters s = Text.smallLetters (name .tcp).toList
  · -- The names of the two protocols differ in small letters too.
    have hne : Text.smallLetters (name .tcp).toList ≠ Text.smallLetters (name .udp).toList := by
      decide +kernel
    cases t <;> simp [hs, hne]
  · cases t <;> simp [hs]

end Transport

/-! ### Cutting at the slash -/

namespace PortSpec

/-- A text may be trimmed before or after it is cut. -/
theorem parts_eq (s : List Char) :
    parts s = match splitFirst '/' s with
      | some (front, back) => (trim front, some (trim back))
      | none => (trim s, none) := by
  -- A slash is no blank, so trimming leaves it where it is.
  have hslash : Text.isBlank '/' = false := by decide
  unfold parts
  cases hcut : splitFirst '/' (trim s) with
  | none =>
    -- There is a slash in the whole exactly if there is one in what is left after trimming.
    rw [Text.splitFirst_eq_none_iff, ← (Text.padded_trim s).mem_iff hslash] at hcut
    rw [Text.splitFirst_eq_none_iff.mpr hcut]
  | some cut =>
    obtain ⟨front, back⟩ := cut
    obtain ⟨htrim, hfront⟩ := Text.append_of_splitFirst hcut
    obtain ⟨before, after, hbefore, hafter, hs⟩ := Text.padded_trim s
    -- The blanks at the two ends stay with the two parts.
    have hpadded : Padded front (before ++ front) := ⟨before, [], hbefore, by simp, by simp⟩
    have hpadded' : Padded back (back ++ after) := ⟨[], after, by simp, hafter, by simp⟩
    have hs' : s = (before ++ front) ++ '/' :: (back ++ after) := by
      rw [hs, htrim]
      simp
    rw [hs', Text.splitFirst_append (mt (hpadded.mem_iff hslash).mp hfront)]
    simp only [hpadded.trim_eq, hpadded'.trim_eq]

/-- What is read is the number and the protocol of the two parts. -/
theorem parse?_eq_some_iff {s : String} {p : PortSpec} : parse? s = some p ↔
    protocol? (parts s.toList).2 = some p.protocol ∧
      readPort? (parts s.toList).1 = some p.port ∧ p.port ≠ 0 := by
  -- The parts are some number and some word here. Where they come from plays no role.
  obtain ⟨port, protocol⟩ := p
  unfold parse?
  obtain ⟨number, word⟩ := parts s.toList
  dsimp only
  cases protocol? word with
  | none => simp
  | some protocol' =>
    cases readPort? number with
    | none => simp
    | some port' =>
      by_cases hzero : port' = 0 <;> simp [hzero] <;> grind

end PortSpec

end Net

/-! ### Reading and writing -/

/-- Reading refuses port zero. -/
theorem port_ne_zero_of_parse? {spec : String} {p : PortSpec}
    (h : PortSpec.parse? spec = some p) : p.port ≠ 0 := (PortSpec.parse?_eq_some_iff.mp h).2.2

namespace Net

/-- A specification is its own text, with nothing around it. -/
theorem isSpec_text (p : PortSpec) : IsSpec p.port.toNat p.protocol p.text.toList := by
  have hnumeral := readPort?_eq_some_iff_isNumeral.mp (readPort?_portText p.port)
  have hword : p.protocol.IsWord p.protocol.name.toList := Transport.isWord_iff.mpr rfl
  have htext : p.text.toList = (portText p.port).toList ++ '/' :: p.protocol.name.toList := by
    simp [PortSpec.text]
  rw [htext]
  exact .named hnumeral hword (Text.padded_self _) (Text.padded_self _)

/-- What is read is written in the grammar. -/
theorem isSpec_of_parse? {s : String} {p : PortSpec} (h : PortSpec.parse? s = some p) :
    IsSpec p.port.toNat p.protocol s.toList := by
  obtain ⟨hprotocol, hport, -⟩ := PortSpec.parse?_eq_some_iff.mp h
  rw [PortSpec.parts_eq] at hprotocol hport
  -- The text has a slash or not, and these are the two forms of the grammar.
  cases hcut : splitFirst '/' s.toList with
  | none =>
    rw [hcut] at hprotocol hport
    rw [← Option.some.inj hprotocol]
    exact .bare (readPort?_eq_some_iff_isNumeral.mp hport) (Text.padded_trim _)
  | some cut =>
    obtain ⟨front, back⟩ := cut
    rw [hcut] at hprotocol hport
    rw [(Text.append_of_splitFirst hcut).1]
    exact .named (readPort?_eq_some_iff_isNumeral.mp hport)
      (Transport.ofWord?_eq_some_iff.mp hprotocol) (Text.padded_trim _) (Text.padded_trim _)

/-- **What is written in the grammar is read**, if the number is that of a port. -/
theorem parse?_of_isSpec {s : String} {p : PortSpec} (h : IsSpec p.port.toNat p.protocol s.toList)
    (hport : p.port ≠ 0) : PortSpec.parse? s = some p := by
  rw [PortSpec.parse?_eq_some_iff, PortSpec.parts_eq]
  obtain ⟨port, protocol⟩ := p
  generalize s.toList = text at h
  cases h with
  | bare numeral padded =>
    have hslash : '/' ∉ text := mt (padded.mem_iff (by decide)).mp numeral.slash_not_mem
    -- Without a slash all of it is the number, and trimming takes off what is around it.
    rw [Text.splitFirst_eq_none_iff.mpr hslash]
    dsimp only
    rw [(Text.trim_eq_iff_padded numeral.isBlank_eq_false).mpr padded]
    exact ⟨rfl, readPort?_eq_some_iff_isNumeral.mpr numeral, hport⟩
  | @named _ _ word front back numeral isWord padded padded' =>
    -- The slash of the form is the first one, since a number has none.
    have hslash : '/' ∉ front := mt (padded.mem_iff (by decide)).mp numeral.slash_not_mem
    rw [Text.splitFirst_append hslash]
    dsimp only
    rw [(Text.trim_eq_iff_padded numeral.isBlank_eq_false).mpr padded,
      (Text.trim_eq_iff_padded isWord.isBlank_eq_false).mpr padded']
    exact ⟨Transport.ofWord?_eq_some_iff.mpr isWord, readPort?_eq_some_iff_isNumeral.mpr numeral,
      hport⟩

/-- **The texts that are read are those of the grammar** whose number is between 1 and 65535; what
is read has that number and that protocol, and it is read back as it is written. -/
theorem specs_read_iff (s : String) :
    ((PortSpec.parse? s).isSome ↔ ∃ n t, 1 ≤ n ∧ n ≤ 65535 ∧ IsSpec n t s.toList) ∧
    (∀ n t, 1 ≤ n → n ≤ 65535 → IsSpec n t s.toList → PortSpec.parse? s = some ⟨.ofNat n, t⟩) ∧
    ∀ p, PortSpec.parse? s = some p →
      IsSpec p.port.toNat p.protocol s.toList ∧ PortSpec.parse? p.text = some p := by
  have hread : ∀ n t, 1 ≤ n → n ≤ 65535 → IsSpec n t s.toList →
      PortSpec.parse? s = some ⟨.ofNat n, t⟩ := by
    intro n t hlow hhigh hspec
    have hlt : n < 2 ^ 16 := by omega
    -- The number is within the range of ports, so it is that of the port made of it.
    have hn : (UInt16.ofNat n).toNat = n := UInt16.toNat_ofNat_of_lt' hlt
    exact parse?_of_isSpec (by rwa [hn]) (ofNat_ne_zero hlow hlt)
  refine ⟨⟨fun hsome => ?_, fun ⟨n, t, hlow, hhigh, hspec⟩ => ?_⟩, hread, fun p hp => ?_⟩
  · obtain ⟨p, hp⟩ := Option.isSome_iff_exists.mp hsome
    -- A port that is read is not zero, and no port is above the range.
    have hlow : p.port.toNat ≠ 0 := fun hzero =>
      port_ne_zero_of_parse? hp (UInt16.toNat_inj.mp hzero)
    have hhigh : p.port.toNat < 65536 := p.port.toNat_lt
    exact ⟨_, _, Nat.one_le_iff_ne_zero.mpr hlow, by omega, isSpec_of_parse? hp⟩
  · rw [hread n t hlow hhigh hspec]
    rfl
  · exact ⟨isSpec_of_parse? hp, parse?_of_isSpec (isSpec_text p) (port_ne_zero_of_parse? hp)⟩

example : PortSpec.parse? " +0053 /\tUdp\u00a0" = some ⟨53, .udp⟩ := by decide +kernel

end Net
end WorkflowPolicy

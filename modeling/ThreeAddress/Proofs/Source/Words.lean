import Mathlib.Data.List.TakeWhile
import ThreeAddress.Source.Line

/-! Words that are joined into lines, and lines that are joined into a text, come apart again. -/

namespace ThreeAddress.Source

/-- A character that can stand in a word: it neither ends the word nor begins a comment. -/
def isWordChar (c : Char) : Bool :=
  !Text.isAsciiBlank c && decide (c ≠ commentMark)

/-- Characters above the space are no blanks, so all but the comment mark can stand in a word. -/
theorem isWordChar_of_lt {c : Char} (above : 0x20 < c.toNat) (plain : c ≠ commentMark) :
    isWordChar c = true := by
  -- Each of the five blanks has a code no greater than that of the space.
  have differs {blank : Char} (low : blank.toNat ≤ 0x20) : c ≠ blank := by
    rintro rfl
    omega
  have visible : Text.isAsciiBlank c = false := by
    simp [Text.isAsciiBlank, differs (show ' '.toNat ≤ 0x20 by decide),
      differs (show '\t'.toNat ≤ 0x20 by decide), differs (show '\n'.toNat ≤ 0x20 by decide),
      differs (show '\x0c'.toNat ≤ 0x20 by decide), differs (show '\r'.toNat ≤ 0x20 by decide)]
  simp [isWordChar, visible, plain]

/-- A text that makes one word: it has a character, and each can stand in a word. -/
def IsWord (word : List Char) : Prop :=
  word ≠ [] ∧ ∀ c ∈ word, isWordChar c = true

/-- Whether a text makes a word can be computed. -/
theorem IsWord.of_all {word : List Char} (nonempty : word ≠ [])
    (fine : word.all isWordChar = true) : IsWord word :=
  ⟨nonempty, List.all_eq_true.mp fine⟩

/-- The characters of a word are no blanks. -/
theorem IsWord.visible {word : List Char} (h : IsWord word) {c : Char} (member : c ∈ word) :
    Text.isAsciiBlank c = false := by
  -- Blanks separate words and are no characters of them.
  have fine := h.2 c member
  simp only [isWordChar, Bool.and_eq_true, Bool.not_eq_true'] at fine
  exact fine.1

/-- The characters of a word begin no comment. -/
theorem IsWord.uncommented {word : List Char} (h : IsWord word) : commentMark ∉ word := by
  -- The comment mark itself cannot stand in a word.
  intro member
  exact absurd (h.2 _ member) (by decide)

/-- A word does not contain the end of a line. -/
theorem IsWord.unbroken {word : List Char} (h : IsWord word) : '\n' ∉ word := by
  -- The end of a line is a blank.
  intro member
  exact absurd (h.2 _ member) (by decide)

private theorem words_blank (rest : List Char) : words (' ' :: rest) = words rest := by
  -- The blank before a word is skipped.
  rw [words.eq_def]
  exact if_pos (by decide)

/-- A word at the end of a text is the last word. -/
theorem words_last {word : List Char} (h : IsWord word) : words word = [word] := by
  obtain ⟨nonempty, fine⟩ := h
  -- From the back, each further character joins the word that follows it.
  induction word with
  | nil => exact absurd rfl nonempty
  | cons c rest ih =>
    have visible := IsWord.visible ⟨nonempty, fine⟩ List.mem_cons_self
    cases rest with
    | nil => simp [words, visible]
    | cons d others =>
      have tail : ∀ e ∈ d :: others, isWordChar e = true :=
        fun e member => fine e (List.mem_cons_of_mem c member)
      have next := IsWord.visible ⟨List.cons_ne_nil d others, tail⟩ List.mem_cons_self
      rw [words]
      simp [visible, next, ih (List.cons_ne_nil d others) tail]

/-- A word before a space is the first word. -/
theorem words_first {word : List Char} (h : IsWord word) (rest : List Char) :
    words (word ++ ' ' :: rest) = word :: words rest := by
  obtain ⟨nonempty, fine⟩ := h
  -- The last character meets the space, and each earlier one joins the word behind it.
  induction word with
  | nil => exact absurd rfl nonempty
  | cons c others ih =>
    have visible := IsWord.visible ⟨nonempty, fine⟩ List.mem_cons_self
    cases others with
    | nil =>
      simp only [List.cons_append, List.nil_append]
      rw [words]
      simp [visible, words_blank, show Text.isAsciiBlank ' ' = true by decide]
    | cons d others =>
      have tail : ∀ e ∈ d :: others, isWordChar e = true :=
        fun e member => fine e (List.mem_cons_of_mem c member)
      have next := IsWord.visible ⟨List.cons_ne_nil d others, tail⟩ List.mem_cons_self
      have joined := ih (List.cons_ne_nil d others) tail
      simp only [List.cons_append] at joined ⊢
      rw [words]
      simp [visible, next, joined]

/-- Words that are joined by spaces come apart again. -/
theorem words_intercalate {ws : List (List Char)} (h : ∀ w ∈ ws, IsWord w) :
    words ([' '].intercalate ws) = ws := by
  -- Words before the last one end at a space, and the last one at the end of the text.
  induction ws with
  | nil => rfl
  | cons w rest ih =>
    have first := h w List.mem_cons_self
    have others : ∀ v ∈ rest, IsWord v := fun v member => h v (List.mem_cons_of_mem w member)
    cases rest with
    | nil => rw [List.intercalate_singleton, words_last first]
    | cons v rest =>
      rw [List.intercalate_cons_cons, List.append_assoc, List.singleton_append,
        words_first first, ih others]

/-- No character of joined words but the joining space is foreign to words. -/
theorem mem_intercalate {ws : List (List Char)} {c : Char} (member : c ∈ [' '].intercalate ws) :
    c = ' ' ∨ ∃ w ∈ ws, c ∈ w := by
  -- A joining space stands between the first word and what follows.
  induction ws with
  | nil => cases member
  | cons w rest ih =>
    cases rest with
    | nil =>
      rw [List.intercalate_singleton] at member
      exact .inr ⟨w, List.mem_cons_self, member⟩
    | cons v rest =>
      rw [List.intercalate_cons_cons] at member
      rcases List.mem_append.mp member with member | member
      · rcases List.mem_append.mp member with member | member
        · exact .inr ⟨w, List.mem_cons_self, member⟩
        · exact .inl (List.mem_singleton.mp member)
      · rcases ih member with space | ⟨u, among, member⟩
        · exact .inl space
        · exact .inr ⟨u, List.mem_cons_of_mem w among, member⟩

/-- A line of words that are joined by spaces has exactly these words. -/
theorem lineWords_intercalate {ws : List String} (h : ∀ w ∈ ws, IsWord w.toList) :
    lineWords (" ".intercalate ws).toList = ws := by
  -- No comment begins in a word, so that the line is not cut short.
  have fine : ∀ w ∈ ws.map String.toList, IsWord w := by simpa using h
  rw [String.toList_intercalate]
  change lineWords ([' '].intercalate (ws.map String.toList)) = ws
  -- Neither the words nor the spaces between them hold a comment mark.
  have whole : ([' '].intercalate (ws.map String.toList)).takeWhile (· ≠ commentMark) =
      [' '].intercalate (ws.map String.toList) := by
    refine List.takeWhile_eq_self_iff.mpr fun c member => ?_
    simp only [decide_eq_true_eq]
    rintro rfl
    rcases mem_intercalate member with space | ⟨w, among, member⟩
    · exact absurd space (by decide)
    · exact (fine w among).uncommented member
  rw [lineWords, whole, words_intercalate fine, List.map_map]
  simp [Function.comp_def]

private theorem cutLines_line {line : List Char} (unbroken : '\n' ∉ line) (rest : List Char) :
    cutLines (line ++ '\n' :: rest) = line :: cutLines rest := by
  -- Only the line feed at the end can end the line.
  induction line with
  | nil => rw [List.nil_append, cutLines, if_pos rfl]
  | cons c others ih =>
    simp only [List.mem_cons, not_or] at unbroken
    rw [List.cons_append, cutLines, if_neg (Ne.symm unbroken.1), ih unbroken.2]

/-- Lines that are ended by line feeds come apart again. -/
theorem cutLines_flatMap {lines : List (List Char)} (unbroken : ∀ line ∈ lines, '\n' ∉ line) :
    cutLines (lines.flatMap fun line => line ++ ['\n']) = lines := by
  -- The first line is cut off at its end, and the others are left as they were.
  induction lines with
  | nil => rfl
  | cons line rest ih =>
    rw [List.flatMap_cons, List.append_assoc, List.singleton_append,
      cutLines_line (unbroken line List.mem_cons_self),
      ih fun other member => unbroken other (List.mem_cons_of_mem line member)]

end ThreeAddress.Source

import ThreeAddress.Machine.Input
import ThreeAddress.Proofs.Text.Notation
import ThreeAddress.Proofs.Text.Trim

/-!
What lines convert to. Blanks around a number or a truth value do not matter, a number has to be in
range, and every line but the empty one is a truth value.
-/

namespace ThreeAddress

namespace Text

/-- A text is spelled in lower case but for the case of its letters. -/
def UpToCase : List Char → List Char → Prop :=
  List.Forall₂ fun c letter => c = letter ∨ c = letter.toUpper

private theorem toNat_toLower (c : Char) :
    c.toLower.toNat = if 65 ≤ c.toNat ∧ c.toNat ≤ 90 then c.toNat + 32 else c.toNat := by
  have upper : (c.val ≥ 'A'.val ∧ c.val ≤ 'Z'.val) ↔ 65 ≤ c.toNat ∧ c.toNat ≤ 90 := by
    rw [ge_iff_le, UInt32.le_iff_toNat_le, UInt32.le_iff_toNat_le]
    rfl
  unfold Char.toLower
  split
  · rename_i letter
    have range := upper.mp letter
    rw [if_pos range]
    -- The code points of letters are too small for the sum to wrap.
    show (c.val + 32).toNat = c.toNat + 32
    rw [UInt32.toNat_add]
    change (c.toNat + 32) % _ = _
    omega
  · rename_i other
    rw [if_neg fun range => other (upper.mpr range)]

private theorem toNat_toUpper (c : Char) :
    c.toUpper.toNat = if 97 ≤ c.toNat ∧ c.toNat ≤ 122 then c.toNat - 32 else c.toNat := by
  have lower : ('a'.val ≤ c.val ∧ c.val ≤ 'z'.val) ↔ 97 ≤ c.toNat ∧ c.toNat ≤ 122 := by
    rw [UInt32.le_iff_toNat_le, UInt32.le_iff_toNat_le]
    rfl
  unfold Char.toUpper
  split
  · rename_i letter
    have range := lower.mp letter
    rw [if_pos range]
    -- The distance is negative, and added as the word that wraps around to it.
    show (c.val + ('A'.val - 'a'.val)).toNat = c.toNat - 32
    rw [UInt32.toNat_add]
    change (c.toNat + 4294967264) % _ = _
    omega
  · rename_i other
    rw [if_neg fun range => other (lower.mpr range)]

private theorem toLower_eq_iff {c letter : Char} (lower : letter.isLower = true) :
    c.toLower = letter ↔ c = letter ∨ c = letter.toUpper := by
  obtain ⟨first, last⟩ := Bool.and_eq_true_iff.mp lower
  have range : 97 ≤ letter.toNat ∧ letter.toNat ≤ 122 :=
    ⟨UInt32.le_iff_toNat_le.mp (of_decide_eq_true first),
      UInt32.le_iff_toNat_le.mp (of_decide_eq_true last)⟩
  have lowered := toNat_toLower c
  have raised := toNat_toUpper letter
  rw [if_pos range] at raised
  -- Upper case is 32 below lower case, and no other character comes to a letter.
  rw [← Char.toNat_inj, ← Char.toNat_inj, ← Char.toNat_inj, lowered, raised]
  split_ifs <;> omega

/-- Letters are compared with those of a word in lower case. -/
theorem map_toLower_eq_iff {text word : List Char}
    (lower : ∀ letter ∈ word, letter.isLower = true) :
    text.map Char.toLower = word ↔ UpToCase text word := by
  -- The letters are compared one after another, as far as both go.
  induction text generalizing word with
  | nil => simp [UpToCase, eq_comm]
  | cons c rest ih =>
    rw [List.map_cons, UpToCase, List.forall₂_cons_left_iff]
    constructor
    · rintro rfl
      have first := lower _ List.mem_cons_self
      have others := fun letter member => lower letter (List.mem_cons_of_mem _ member)
      exact ⟨_, _, (toLower_eq_iff first).mp rfl, (ih others).mp rfl, rfl⟩
    · rintro ⟨letter, letters, same, others, rfl⟩
      have first := lower letter List.mem_cons_self
      rw [(toLower_eq_iff first).mpr same,
        (ih fun other member => lower other (List.mem_cons_of_mem _ member)).mpr others]

end Text

namespace Input

/-- The value that a line converts to under a type. -/
inductive Converts (line : String) : DataType → Value → Prop where
  /-- A number may have a sign, and has to fit into a machine integer. -/
  | number {core : List Char} {n : Int64} (trimmed : Text.Trims line.toList core)
      (numeral : Text.WithSign (Text.Denotes 10) core n.toInt) : Converts line .int (.int n)
  | noNumber {core : List Char} (trimmed : Text.Trims line.toList core)
      (none : ∀ n : Int64, ¬ Text.WithSign (Text.Denotes 10) core n.toInt) :
      Converts line .int .nil
  | truth {core : List Char} (more : line ≠ "") (trimmed : Text.Trims line.toList core)
      (spelled : Text.UpToCase core "true".toList) : Converts line .bool (.bool true)
  /-- Anything else is false, even if it is blank. -/
  | falsehood {core : List Char} (more : line ≠ "") (trimmed : Text.Trims line.toList core)
      (other : ¬ Text.UpToCase core "true".toList) : Converts line .bool (.bool false)
  | noTruth (empty : line = "") : Converts line .bool .nil
  | text : Converts line .string (.string line)

variable {line : String} {t : DataType} {value : Value}

/-- The word that stands for truth is told by its letters, in any case. -/
theorem isTrue_iff {core : List Char} :
    isTrue core = true ↔ Text.UpToCase core "true".toList := by
  -- The word is spelled in small letters.
  rw [isTrue, decide_eq_true_eq]
  exact Text.map_toLower_eq_iff (List.all_eq_true.mp (by decide))

/-- A line has one value under a type. -/
theorem Converts.eq (converts : Converts line t value) : value = convert t line := by
  cases converts with
  | number trimmed numeral =>
    rw [convert, trimmed.trim_eq, Text.readInt64_eq_some_iff.mpr numeral]
  | noNumber trimmed none =>
    rw [convert, trimmed.trim_eq]
    -- What would be read is denoted by the line.
    split
    · rfl
    · rename_i n read
      exact absurd (Text.readInt64_eq_some_iff.mp read) (none n)
  | truth more trimmed spelled =>
    rw [convert, if_neg more, trimmed.trim_eq, isTrue_iff.mpr spelled]
  | falsehood more trimmed other =>
    rw [convert, if_neg more, trimmed.trim_eq,
      Bool.eq_false_iff.mpr fun spelled => other (isTrue_iff.mp spelled)]
  | noTruth empty => rw [convert, if_pos empty]
  | text => rfl

/-- Every line has a value under every type but that of nil. -/
theorem converts_convert (typed : t ≠ .nil) (line : String) : Converts line t (convert t line) := by
  have trimmed := Text.trims_trim line.toList
  cases t with
  | int =>
    -- What is not read is no numeral in range.
    rw [convert]
    split
    · rename_i unread
      refine .noNumber trimmed fun n numeral => ?_
      rw [Text.readInt64_eq_some_iff.mpr numeral] at unread
      cases unread
    · rename_i n read
      exact .number trimmed (Text.readInt64_eq_some_iff.mp read)
  | bool =>
    rw [convert]
    split
    · rename_i empty
      exact .noTruth empty
    · rename_i more
      cases spelled : isTrue (Text.trim line.toList) with
      | true => exact .truth more trimmed (isTrue_iff.mp spelled)
      | false =>
        refine .falsehood more trimmed fun truth => ?_
        rw [isTrue_iff.mpr truth] at spelled
        cases spelled
  | string => exact .text
  | nil => exact absurd rfl typed

end Input

end ThreeAddress

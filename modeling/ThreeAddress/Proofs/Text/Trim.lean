import Mathlib.Data.List.DropRight
import ThreeAddress.Text.Blank

/-!
Trimming. What is left of a text is the part between the blanks at its two ends, and blanks that are
put around a text do not change what is left.
-/

namespace ThreeAddress.Text

/-- A text is another one with nothing but blanks around it. -/
def Surrounds (text core : List Char) : Prop :=
  ∃ front back, text = front ++ core ++ back ∧
    (∀ c ∈ front, isBlank c = true) ∧ ∀ c ∈ back, isBlank c = true

/-- A text is another one with blanks around it, which begins and ends with no blank itself. -/
structure Trims (text core : List Char) : Prop where
  surrounds : Surrounds text core
  first : ∀ c, core.head? = some c → isBlank c = false
  last : ∀ c, core.getLast? = some c → isBlank c = false

variable {text core front back : List Char}

private theorem trim_eq (text : List Char) :
    trim text = (text.dropWhile isBlank).rdropWhile isBlank :=
  -- Blanks are dropped in front first and then behind.
  rfl

/-- A text between blanks, with no blank at either end, is what trimming leaves. -/
theorem Trims.trim_eq (trims : Trims text core) : trim text = core := by
  obtain ⟨⟨front, back, rfl, before, behind⟩, first, last⟩ := trims
  rw [Text.trim_eq, List.append_assoc, List.dropWhile_append_of_pos before]
  cases core with
  | nil =>
    -- Nothing but blanks is left behind the first ones.
    rw [List.nil_append, List.dropWhile_eq_nil_iff.mpr behind, List.rdropWhile_nil]
  | cons c rest =>
    have visible := first c rfl
    rw [List.cons_append, List.dropWhile_cons_of_neg (by simp [visible])]
    -- From the other end, blanks are dropped up to the last character of the core.
    have ends := last _ (List.getLast?_eq_some_getLast (List.cons_ne_nil c rest))
    rw [← List.cons_append, List.rdropWhile, List.reverse_append,
      List.dropWhile_append_of_pos fun d member => behind d (List.mem_reverse.mp member),
      ← List.rdropWhile, List.rdropWhile_eq_self_iff]
    intro more
    simp [ends]

/-- What trimming leaves stands between blanks, and has no blank at either end. -/
theorem trims_trim (text : List Char) : Trims text (trim text) where
  surrounds := by
    refine ⟨text.takeWhile isBlank, (text.dropWhile isBlank).rtakeWhile isBlank, ?_, ?_, ?_⟩
    · rw [trim_eq, List.append_assoc, List.rdropWhile_append_rtakeWhile,
        List.takeWhile_append_dropWhile]
    · intro c member
      exact List.mem_takeWhile_imp member
    · intro c member
      exact List.mem_rtakeWhile_imp member
  first c begins := by
    -- Dropping at the end leaves the beginning as it is, unless it leaves nothing.
    obtain ⟨rest, shape⟩ := List.head?_eq_some_iff.mp begins
    have kept := List.rdropWhile_prefix isBlank (text.dropWhile isBlank)
    rw [← trim_eq, shape] at kept
    obtain ⟨back, whole⟩ := kept
    have visible := List.head?_dropWhile_not isBlank text
    rw [← whole, List.cons_append, List.head?_cons] at visible
    simpa using visible
  last c ends := by
    have more : trim text ≠ [] := by
      intro empty
      rw [empty] at ends
      cases ends
    have visible := List.rdropWhile_last_not isBlank (text.dropWhile isBlank) more
    rw [List.getLast?_eq_some_getLast more] at ends
    cases ends
    exact Bool.eq_false_iff.mpr visible

/-- Trimming leaves exactly the text between the blanks. -/
theorem trim_eq_iff : trim text = core ↔ Trims text core := by
  -- There is one way to trim a text.
  constructor
  · rintro rfl
    exact trims_trim text
  · exact Trims.trim_eq

/-- Blanks behind a text do not change what trimming leaves. -/
theorem trim_append_of_blank (text : List Char) (blank : ∀ c ∈ back, isBlank c = true) :
    trim (text ++ back) = trim text := by
  -- They join the blanks that are there already.
  obtain ⟨⟨front, others, shape, before, behind⟩, first, last⟩ := trims_trim text
  refine Trims.trim_eq ⟨⟨front, others ++ back, ?_, before, ?_⟩, first, last⟩
  · rw [← List.append_assoc, ← shape]
  · intro c member
    rcases List.mem_append.mp member with inside | added
    · exact behind c inside
    · exact blank c added

/-- Where a core has no blank in it, what surrounds it is trimmed off. -/
theorem Surrounds.trims (surrounds : Surrounds text core)
    (visible : ∀ c ∈ core, isBlank c = false) : Trims text core where
  surrounds := surrounds
  first c begins := visible c (List.mem_of_head? begins)
  last c ends := visible c (List.mem_of_getLast? ends)

end ThreeAddress.Text

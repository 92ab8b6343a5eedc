import ThreeAddress.Proofs.Language.Placing

/-!
Arguments go by position. What an instruction is made of, and what is complained about, depends on
which argument has which position, and not on the sequence in which the arguments come.
-/

namespace ThreeAddress

/-- The positions of arguments are exactly those that count from one, each of them once. -/
def Numbered (arguments : List Argument) : Prop :=
  (arguments.map Argument.position).Perm (List.range' 1 arguments.length)

variable {arguments placed : List Argument} {a : Argument} {position : Nat}

/-- Arguments with such positions are those that can be put into place. -/
theorem numbered_iff :
    Numbered arguments ↔ ∃ placed : List Argument, placed.Perm arguments ∧ InPlace placed := by
  constructor
  · intro numbered
    have reordered := List.mergeSort_perm arguments fun a b => a.position ≤ b.position
    refine ⟨_, reordered, ?_⟩
    -- Positions that ascend and count from one can do so in one sequence only.
    rw [InPlace, reordered.length_eq]
    exact ((reordered.map Argument.position).trans numbered).eq_of_pairwise
      (fun _ _ _ _ => Nat.le_antisymm) (Instruction.positions_ascending arguments)
      ((List.pairwise_lt_range').imp Nat.le_of_lt)
  · intro ⟨placed, same, inPlace⟩
    have positions := same.map Argument.position
    rw [show placed.map Argument.position = _ from inPlace, same.length_eq] at positions
    exact positions.symm

/-- Some position is out of place exactly where the positions do not count from one. -/
theorem exists_misplaced_iff :
    (∃ position, Misplaced (arguments.map Argument.position) position) ↔ ¬ Numbered arguments := by
  constructor
  · intro ⟨position, last, rest, same, ascending, skipped⟩ numbered
    -- Both sequences ascend, and so agree on what comes behind the last position in place.
    have equal := (same.symm.trans numbered).eq_of_pairwise (fun _ _ _ _ => Nat.le_antisymm)
      ascending ((List.pairwise_lt_range').imp Nat.le_of_lt)
    have found : (List.range' 1 last ++ position :: rest)[last]? = some position := by simp
    rw [equal, List.getElem?_eq_some_iff] at found
    obtain ⟨_, there⟩ := found
    rw [List.getElem_range'] at there
    omega
  · intro other
    rcases Instruction.placed_or_misplaced arguments with found | wrong
    · exact absurd (numbered_iff.mpr found) other
    · exact wrong

/-- Where arguments are in place, each one is found at the index that its position tells. -/
theorem getElem?_inPlace (same : placed.Perm arguments) (inPlace : InPlace placed) {k : Nat} :
    placed[k]? = some a ↔ a ∈ arguments ∧ a.position = k + 1 := by
  -- The positions count from one, and no two of them are the same.
  have at_ (j : Nat) (b : Argument) (there : placed[j]? = some b) : b.position = j + 1 := by
    have shown : (placed.map Argument.position)[j]? = some b.position := by
      rw [List.getElem?_map, there]
      rfl
    rw [show placed.map Argument.position = _ from inPlace, List.getElem?_eq_some_iff] at shown
    obtain ⟨_, shown⟩ := shown
    rw [List.getElem_range'] at shown
    omega
  constructor
  · intro there
    exact ⟨same.mem_iff.mp (List.mem_of_getElem? there), at_ k a there⟩
  · intro ⟨member, ranked⟩
    obtain ⟨j, there⟩ := List.mem_iff_getElem?.mp (same.mem_iff.mpr member)
    have found := at_ j a there
    rw [show k = j by omega]
    exact there

/-- Operands belong to arguments in place if each belongs to the argument of its position. -/
theorem forall₂_inPlace (same : placed.Perm arguments) (inPlace : InPlace placed)
    {operands : List Operand} {R : Argument → Operand → Prop} :
    List.Forall₂ R placed operands ↔ operands.length = arguments.length ∧
      ∀ a ∈ arguments, ∃ o, operands[a.position - 1]? = some o ∧ R a o := by
  rw [List.forall₂_iff_get, ← same.length_eq, eq_comm]
  apply and_congr_right
  intro equal
  constructor
  · intro each a member
    -- The argument stands where its position says, for no position is zero.
    obtain ⟨k, there⟩ := List.mem_iff_getElem?.mp (same.mem_iff.mpr member)
    have ranked := ((getElem?_inPlace same inPlace).mp there).2
    obtain ⟨small, rfl⟩ := List.getElem?_eq_some_iff.mp there
    have short : k < operands.length := by
      rw [equal]
      exact small
    refine ⟨operands[k], ?_, each k small short⟩
    rw [ranked, Nat.add_sub_cancel]
    exact List.getElem?_eq_getElem short
  · intro each k small short
    have there := List.getElem?_eq_getElem small
    obtain ⟨member, ranked⟩ := (getElem?_inPlace same inPlace).mp there
    obtain ⟨o, found, related⟩ := each _ member
    rw [ranked, Nat.add_sub_cancel, List.getElem?_eq_getElem short] at found
    cases found
    exact related

/-- The first argument in place that is refused is the one of the lowest such position. -/
theorem firstWrong_inPlace (same : placed.Perm arguments) (inPlace : InPlace placed)
    {fine : Argument → Prop} {wrong : Argument → ArgumentError → Prop} {e : ArgumentError} :
    FirstWrong fine wrong placed e ↔
      ∃ a ∈ arguments, wrong a e ∧ ∀ b ∈ arguments, b.position < a.position → fine b := by
  simp only [firstWrong_iff, getElem?_inPlace same inPlace]
  constructor
  · intro ⟨k, a, ⟨member, ranked⟩, bad, before⟩
    refine ⟨a, member, bad, fun b other lower => ?_⟩
    -- A lower position is one more than a lower index.
    obtain ⟨j, there⟩ := List.mem_iff_getElem?.mp (same.mem_iff.mpr other)
    have found := (getElem?_inPlace same inPlace).mp there
    exact before j b (by omega) found
  · intro ⟨a, member, bad, before⟩
    obtain ⟨k, there⟩ := List.mem_iff_getElem?.mp (same.mem_iff.mpr member)
    have found := (getElem?_inPlace same inPlace).mp there
    refine ⟨k, a, found, bad, fun j b small other => ?_⟩
    exact before b other.1 (by omega)

/-- Arguments in place denote operands in place, or fail as the lowest that is refused does. -/
theorem InPlace.denotes (same : placed.Perm arguments) (inPlace : InPlace placed) :
    EndsAs (placed.mapM Operand.ofArgument)
      (fun operands => operands.length = arguments.length ∧
        ∀ a ∈ arguments, ∃ o, operands[a.position - 1]? = some o ∧ Operand.ofArgument a = .ok o)
      (fun e => ∃ a ∈ arguments, Operand.ofArgument a = .error e ∧
        ∀ b ∈ arguments, b.position < a.position → ∃ o, Operand.ofArgument b = .ok o) := by
  -- Each argument ends as it does, and from that the list is passed or not.
  have each : List.Forall₂ (fun a b => EndsAs (Operand.ofArgument b)
      (fun o => Operand.ofArgument a = .ok o) (fun e => Operand.ofArgument a = .error e))
      placed placed :=
    List.forall₂_same.mpr fun _ _ => ⟨fun _ => Iff.rfl, fun _ => Iff.rfl⟩
  apply (EndsAs.mapM each).congr
  · intro operands
    exact forall₂_inPlace same inPlace
  · intro e
    exact firstWrong_inPlace same inPlace

/-- Which positions there are does not depend on the sequence of the arguments. -/
theorem numbered_perm {other : List Argument} (same : other.Perm arguments) :
    Numbered other ↔ Numbered arguments := by
  -- Both sides count the arguments and list their positions, in some sequence.
  rw [Numbered, Numbered, same.length_eq]
  exact (same.map Argument.position).congr_left _

/-- Which position is out of place does not depend on the sequence of the arguments. -/
theorem misplaced_perm {other : List Argument} (same : other.Perm arguments) :
    Misplaced (other.map Argument.position) position ↔
      Misplaced (arguments.map Argument.position) position := by
  -- Only a list in some sequence is asked for, which all sequences have in common.
  apply exists_congr
  intro last
  apply exists_congr
  intro rest
  rw [(same.map Argument.position).congr_left]

namespace Instruction

/-- How arguments make an instruction, and how they fail, told by their positions alone. -/
theorem ofArguments_endsAs (opcode : Opcode) (order : UInt64) (arguments : List Argument) :
    EndsAs (ofArguments opcode order arguments)
      (fun i => i.opcode = opcode ∧ i.order = order ∧ Numbered arguments ∧
        i.operands.length = arguments.length ∧
          ∀ a ∈ arguments, ∃ o, i.operands[a.position - 1]? = some o ∧
            Operand.ofArgument a = .ok o)
      (fun e =>
        (∃ position, Misplaced (arguments.map Argument.position) position ∧
          e = .invalidPosition position) ∨
        Numbered arguments ∧ ∃ a ∈ arguments, Operand.ofArgument a = .error e ∧
          ∀ b ∈ arguments, b.position < a.position → ∃ o, Operand.ofArgument b = .ok o) := by
  -- What is said of the arguments in place is said again by their positions.
  constructor
  · intro i
    rw [ofArguments_ok_iff]
    refine and_congr_right fun _ => and_congr_right fun _ => ?_
    constructor
    · intro ⟨placed, same, inPlace, denoted⟩
      have pairs := ((inPlace.denotes same).ok_iff _).mp denoted
      exact ⟨numbered_iff.mpr ⟨placed, same, inPlace⟩, pairs⟩
    · intro ⟨numbered, pairs⟩
      obtain ⟨placed, same, inPlace⟩ := numbered_iff.mp numbered
      exact ⟨placed, same, inPlace, ((inPlace.denotes same).ok_iff _).mpr pairs⟩
  · intro e
    rw [ofArguments_error_iff]
    apply or_congr_right
    constructor
    · intro ⟨placed, same, inPlace, failed⟩
      have refused := ((inPlace.denotes same).error_iff e).mp failed
      exact ⟨numbered_iff.mpr ⟨placed, same, inPlace⟩, refused⟩
    · intro ⟨numbered, refused⟩
      obtain ⟨placed, same, inPlace⟩ := numbered_iff.mp numbered
      exact ⟨placed, same, inPlace, ((inPlace.denotes same).error_iff e).mpr refused⟩

/--
Arguments are placed by position only.

The sequence of the arguments has no influence on the instruction or on the complaint. There is an
instruction exactly if the positions count from one and every argument denotes an operand, and then
each operand stands where the position of its argument says. If the positions do not count from one,
the first one that is out of place when all of them ascend is reported, whatever the texts are. If
they do, the complaint is that about the argument of the lowest position that denotes no operand.
-/
theorem arguments_go_by_position (opcode : Opcode) (order : UInt64) (arguments : List Argument) :
    (∀ other : List Argument, other.Perm arguments →
      ofArguments opcode order other = ofArguments opcode order arguments) ∧
    ((∃ i, ofArguments opcode order arguments = .ok i) ↔
      Numbered arguments ∧ ∀ a ∈ arguments, ∃ o, Operand.ofArgument a = .ok o) ∧
    EndsAs (ofArguments opcode order arguments)
      (fun i => i.opcode = opcode ∧ i.order = order ∧ Numbered arguments ∧
        i.operands.length = arguments.length ∧
          ∀ a ∈ arguments, ∃ o, i.operands[a.position - 1]? = some o ∧
            Operand.ofArgument a = .ok o)
      (fun e =>
        (∃ position, Misplaced (arguments.map Argument.position) position ∧
          e = .invalidPosition position) ∨
        Numbered arguments ∧ ∃ a ∈ arguments, Operand.ofArgument a = .error e ∧
          ∀ b ∈ arguments, b.position < a.position → ∃ o, Operand.ofArgument b = .ok o) ∧
    ((∃ position, Misplaced (arguments.map Argument.position) position) ↔
      ¬ Numbered arguments) := by
  have ends := ofArguments_endsAs opcode order arguments
  refine ⟨fun other same => ?_, ?_, ends, exists_misplaced_iff⟩
  · -- Whatever the one sequence ends in, the other one does, for the conditions are the same.
    have moved := ofArguments_endsAs opcode order other
    cases ended : ofArguments opcode order arguments with
    | ok i =>
      apply (moved.ok_iff i).mpr
      have fine := (ends.ok_iff i).mp ended
      simpa only [numbered_perm same, same.length_eq, same.mem_iff] using fine
    | error e =>
      apply (moved.error_iff e).mpr
      have wrong := (ends.error_iff e).mp ended
      simpa only [misplaced_perm same, numbered_perm same, same.mem_iff] using wrong
  · constructor
    · intro ⟨i, built⟩
      obtain ⟨_, _, numbered, _, denoted⟩ := (ends.ok_iff i).mp built
      refine ⟨numbered, fun a member => ?_⟩
      obtain ⟨o, _, denotes⟩ := denoted a member
      exact ⟨o, denotes⟩
    · intro ⟨numbered, denoted⟩
      -- There is nothing to complain about, and so there is an instruction.
      cases ended : ofArguments opcode order arguments with
      | ok i => exact ⟨i, rfl⟩
      | error e =>
        rcases (ends.error_iff e).mp ended with ⟨position, wrong, _⟩ | ⟨_, a, member, refused, _⟩
        · exact absurd numbered (exists_misplaced_iff.mp ⟨position, wrong⟩)
        · obtain ⟨o, denotes⟩ := denoted a member
          rw [denotes] at refused
          cases refused

/-- A refused text is reported from either sequence, but a shared position comes before it. -/
theorem arguments_go_by_position_of_shared :
    let x : Argument := ⟨.var, "GF@x", 1⟩
    let refused : Argument := ⟨.int, "one", 2⟩
    Numbered [x, refused] ∧
    ofArguments .move 7 [x, refused] = .error (.invalidInt "one") ∧
    ofArguments .move 7 [refused, x] = .error (.invalidInt "one") ∧
    ofArguments .add 7 [refused, x, refused] = .error (.invalidPosition 2) := by
  intro x refused
  obtain ⟨same, _, ends, _⟩ := arguments_go_by_position .move 7 [x, refused]
  obtain ⟨_, _, shared, _⟩ := arguments_go_by_position .add 7 [refused, x, refused]
  have numbered : Numbered [x, refused] := .refl [1, 2]
  have failed : ofArguments .move 7 [x, refused] = .error (.invalidInt "one") := by
    apply (ends.error_iff _).mpr
    refine .inr ⟨numbered, refused, by simp, by decide +kernel, fun b member lower => ?_⟩
    -- Only the variable comes before the text that is refused.
    rcases List.mem_pair.mp member with rfl | rfl
    · exact ⟨.var ⟨.globalFrame, "x"⟩, by decide +kernel⟩
    · exact absurd lower (by decide)
  refine ⟨numbered, failed, (same _ (.swap x refused [])).trans failed, ?_⟩
  -- The second of the equal positions is the first one that differs from its rank.
  apply (shared.error_iff _).mpr
  exact .inl ⟨2, ⟨2, [], .swap 1 2 [2], by decide, by decide⟩, rfl⟩

end Instruction

end ThreeAddress

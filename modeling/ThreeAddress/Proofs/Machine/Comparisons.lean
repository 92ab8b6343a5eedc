import ThreeAddress.Proofs.Machine.Storing
import ThreeAddress.Proofs.Text.Utf8

/-!
Comparisons cohere. The operations that compare two values go by one order and one equality, and
the branches decide by the same equality.
-/

namespace ThreeAddress

namespace Value

variable {a b c : Value}

/-- The order of values, which compares values of one type only, and nil with nothing. -/
inductive Less : Value → Value → Prop where
  | int {m n : Int64} (below : m.toInt < n.toInt) : Less (.int m) (.int n)
  | bool : Less (.bool false) (.bool true)
  /-- Texts are in the lexicographic order of their code points. -/
  | string {s t : String} (below : Text.codePoints s < Text.codePoints t) :
      Less (.string s) (.string t)

/-- The order is transitive. -/
theorem Less.trans (first : a.Less b) (second : b.Less c) : a.Less c := by
  -- The value in the middle has one type, and so all three have.
  cases first with
  | int below =>
    cases second with
    | int above => exact .int (Int.lt_trans below above)
  | bool => cases second
  | string below =>
    cases second with
    | string above =>
      rw [Text.codePoints_lt_iff] at below above
      exact .string (Text.codePoints_lt_iff.mpr (lt_trans below above))

/-- Of two values of a type other than nil, the first is less, the second is, or they are equal. -/
theorem less_trichotomy (same : a.dataType = b.dataType) (valued : a ≠ .nil) :
    a.Less b ∧ ¬ b.Less a ∧ a ≠ b ∨ ¬ a.Less b ∧ b.Less a ∧ a ≠ b ∨
      ¬ a.Less b ∧ ¬ b.Less a ∧ a = b := by
  -- No value is less than itself, so that at most one of the three is the case.
  have irrefl (a : Value) : ¬ a.Less a := by
    intro less
    cases less with
    | int below => exact Int.lt_irrefl _ below
    | string below => exact lt_irrefl _ (Text.codePoints_lt_iff.mp below)
  have first (less : a.Less b) : a.Less b ∧ ¬ b.Less a ∧ a ≠ b :=
    ⟨less, fun back => irrefl a (less.trans back), fun equal => irrefl a (equal ▸ less)⟩
  have second (less : b.Less a) : ¬ a.Less b ∧ b.Less a ∧ a ≠ b :=
    ⟨fun back => irrefl a (back.trans less), less, fun equal => irrefl b (equal ▸ less)⟩
  have third (equal : a = b) : ¬ a.Less b ∧ ¬ b.Less a ∧ a = b := by
    subst equal
    exact ⟨irrefl a, irrefl a, rfl⟩
  -- That one of them is the case is seen for each type.
  suffices decided : a.Less b ∨ b.Less a ∨ a = b from
    decided.imp first (Or.imp second third)
  cases a with
  | nil => exact absurd rfl valued
  | int m =>
    cases b with
    | int n =>
      rcases Int.lt_trichotomy m.toInt n.toInt with below | equal | above
      · exact .inl (.int below)
      · exact .inr (.inr (congrArg Value.int (Int64.toInt_inj.mp equal)))
      · exact .inr (.inl (.int above))
    | _ => cases same
  | bool p =>
    cases b with
    | bool q =>
      cases p <;> cases q
      · exact .inr (.inr rfl)
      · exact .inl .bool
      · exact .inr (.inl .bool)
      · exact .inr (.inr rfl)
    | _ => cases same
  | string s =>
    cases b with
    | string t =>
      rcases lt_trichotomy s t with below | rfl | above
      · exact .inl (.string (Text.codePoints_lt_iff.mpr below))
      · exact .inr (.inr rfl)
      · exact .inr (.inl (.string (Text.codePoints_lt_iff.mpr above)))
    | _ => cases same

/-- The test for the order finds what is less. -/
theorem below?_eq_true_iff : a.below? b = some true ↔ a.Less b := by
  -- Each type has a test of its own, and the one for texts goes by characters.
  constructor
  · intro below
    unfold below? at below
    split at below
    · exact .int (Int64.lt_iff_toInt_lt.mp (of_decide_eq_true (Option.some.inj below)))
    · rename_i p q
      cases p <;> cases q <;> cases below
      exact .bool
    · exact .string (Text.codePoints_lt_iff.mpr (of_decide_eq_true (Option.some.inj below)))
    · cases below
  · intro less
    cases less with
    | int below => exact congrArg some (decide_eq_true (Int64.lt_iff_toInt_lt.mpr below))
    | bool => rfl
    | string below => exact congrArg some (decide_eq_true (Text.codePoints_lt_iff.mp below))

instance : Decidable (a.Less b) :=
  decidable_of_iff _ below?_eq_true_iff

/-- The test for the order has an answer exactly for values of one type other than nil. -/
theorem below?_eq_none_iff :
    a.below? b = none ↔ a.dataType ≠ b.dataType ∨ a = .nil ∨ b = .nil := by
  -- The test goes by the types of both values.
  cases a <;> cases b <;> simp [below?, dataType]

/-- The test for the order tells whether one value is less, where it has an answer. -/
theorem below?_eq : a.below? b =
    if a.dataType ≠ b.dataType ∨ a = .nil ∨ b = .nil then none else some (decide (a.Less b)) := by
  split
  · rename_i apart
    exact below?_eq_none_iff.mpr apart
  · rename_i together
    -- An answer that is not true can only be false.
    cases answer : a.below? b with
    | none => exact absurd (below?_eq_none_iff.mp answer) together
    | some less =>
      have told : less = true ↔ decide (a.Less b) = true := by
        rw [decide_eq_true_iff, ← below?_eq_true_iff, answer, Option.some.injEq]
      rw [Bool.eq_iff_iff.mpr told]

/-- The test for equality has an answer for values of one type, and wherever there is nil. -/
theorem equals?_eq : a.equals? b =
    if a.dataType ≠ b.dataType ∧ a ≠ .nil ∧ b ≠ .nil then none else some (decide (a = b)) := by
  -- The test goes by the types of both values, and nil is told apart first.
  cases a <;> cases b <;> simp [equals?, dataType]

end Value

namespace Opcode

open Value

/-- A test is answered exactly where it has a result. -/
theorem answer_eq_ok_iff {opcode : Opcode} {result : Option Bool} {b : Bool} :
    opcode.answer result = .ok (.bool b) ↔ result = some b := by
  -- An answer tells the result and nothing else.
  cases result <;> simp [answer]

/-- A test without a result fails for the types of its operands. -/
theorem answer_eq_error_iff {opcode : Opcode} {result : Option Bool} {cause : Cause} :
    opcode.answer result = .error cause ↔ result = none ∧ cause = .wrongTypes opcode := by
  -- There is one error, and it is raised where there is no result.
  cases result <;> simp [answer, eq_comm]

/-- The answers of the three comparisons of two values. -/
structure Answers (a b : Value) (less greater equal : Bool) : Prop where
  lt : lt.combine a b = .ok (.bool less)
  gt : gt.combine a b = .ok (.bool greater)
  eq : eq.combine a b = .ok (.bool equal)

variable {a b c : Value}

/-- One value is compared to be less than another as the order of values has it. -/
theorem combine_lt : lt.combine a b =
    if a.dataType ≠ b.dataType ∨ a = .nil ∨ b = .nil then .error (.wrongTypes .lt)
    else .ok (.bool (decide (a.Less b))) := by
  -- The test of the operation is the one that the order specifies.
  rw [combine, below?_eq]
  split <;> rfl

/-- One value is compared to be less than another exactly if it is. -/
theorem lt_eq_true_iff : lt.combine a b = .ok (.bool true) ↔ a.Less b := by
  -- The operation answers what its test finds.
  rw [← below?_eq_true_iff, combine, answer_eq_ok_iff]

/-- One value is compared to be greater than another if the other is less. -/
theorem combine_gt : gt.combine a b =
    if a.dataType ≠ b.dataType ∨ a = .nil ∨ b = .nil then .error (.wrongTypes .gt)
    else .ok (.bool (decide (b.Less a))) := by
  rw [combine, below?_eq]
  -- The test of the other value has the same conditions, in another order.
  have swapped : (b.dataType ≠ a.dataType ∨ b = .nil ∨ a = .nil) ↔
      (a.dataType ≠ b.dataType ∨ a = .nil ∨ b = .nil) :=
    or_congr ne_comm Or.comm
  rw [if_congr swapped rfl rfl]
  split <;> rfl

/-- Equality is compared between values of one type, and between nil and anything. -/
theorem combine_eq : eq.combine a b =
    if a.dataType ≠ b.dataType ∧ a ≠ .nil ∧ b ≠ .nil then .error (.wrongTypes .eq)
    else .ok (.bool (decide (a = b))) := by
  -- The test of the operation is the one that equality specifies.
  rw [combine, equals?_eq]
  split <;> rfl

/-- Exactly one comparison of two values of a type other than nil comes out true. -/
theorem exists_answers (same : a.dataType = b.dataType) (valued : a ≠ .nil) :
    Answers a b true false false ∨ Answers a b false true false ∨ Answers a b false false true := by
  -- If one value is not nil, another one of its type is not either.
  have other : b ≠ .nil := by
    rintro rfl
    cases a <;> first | exact valued rfl | cases same
  have comparable : ¬ (a.dataType ≠ b.dataType ∨ a = .nil ∨ b = .nil) := by
    simp [same, valued, other]
  have testable : ¬ (a.dataType ≠ b.dataType ∧ a ≠ .nil ∧ b ≠ .nil) := fun h => h.1 same
  have answers : Answers a b (decide (a.Less b)) (decide (b.Less a)) (decide (a = b)) :=
    ⟨by rw [combine_lt, if_neg comparable], by rw [combine_gt, if_neg comparable],
      by rw [combine_eq, if_neg testable]⟩
  rcases less_trichotomy same valued with
    ⟨less, greater, equal⟩ | ⟨less, greater, equal⟩ | ⟨less, greater, equal⟩
  · simp only [less, greater, equal, decide_true, decide_false] at answers
    exact .inl answers
  · simp only [less, greater, equal, decide_true, decide_false] at answers
    exact .inr (.inl answers)
  · simp only [less, greater, decide_false] at answers
    rw [decide_eq_true equal] at answers
    exact .inr (.inr answers)

end Opcode

/-- An instruction that compares two values stores the answer, or fails as the comparison does. -/
structure Machine.Compares (devices : Devices) (image : Image) (m : Machine) (i : Instruction)
    (a b : Value) : Prop where
  /-- The variable has to be declared, and need not have a value. -/
  stored : ∀ answer x type, i.opcode.combine a b = .ok answer →
    i.operands.head? = some (.var x) → m.frames.typeOf x = .ok type →
      ∃ frames, m.frames.assign x answer = .ok frames ∧ frames.read x = .ok answer ∧
        m.advance devices image = .next { m with
          frames, pc := m.pc + 1, executed := m.executed + 1, last := some i.opcode }
  refused : ∀ cause, i.opcode.combine a b = .error cause →
    m.advance devices image = .fault (.raised i.order cause) { m with pc := m.pc + 1 }

/-- A branch to a position decides as the comparison for equality, or fails where that does. -/
structure Machine.Branches (devices : Devices) (image : Image) (m : Machine) (i : Instruction)
    (position : Nat) (a b : Value) : Prop where
  /-- One of the two branches is taken if the values are equal, and the other one if not. -/
  decided : ∀ equal, Opcode.eq.combine a b = .ok (.bool equal) →
    m.advance devices image = .next { m with
      pc := if equal = decide (i.opcode = .jumpIfEq) then position else m.pc + 1
      executed := m.executed + 1, last := some i.opcode }
  refused : ∀ cause, Opcode.eq.combine a b = .error cause →
    m.advance devices image =
      .fault (.raised i.order (.wrongTypes i.opcode)) { m with pc := m.pc + 1 }

namespace Instruction

variable {i : Instruction} {labels : Labels} {frames : Frames} {a b : Value}

/-- The effect of a branch follows from the test for equality. -/
theorem branching_eq {position : Nat} {wanted : Bool} (target : i.target labels = .ok position)
    (first : i.value frames 1 = .ok a) (second : i.value frames 2 = .ok b) :
    i.branching labels frames wanted =
      match a.equals? b with
      | none => .error (.wrongTypes i.opcode)
      | some equal => .ok (if equal = wanted then .jump position else .skip) := by
  -- The target and both values are there, so that only the test is left.
  rw [branching, target, first, second]
  rfl

end Instruction

namespace Machine

variable {devices : Devices} {image : Image} {m : Machine} {i : Instruction} {a b : Value}

/-- A comparison of two sources that have values compares them. -/
theorem compares (fetched : image.code[m.pc]? = some i)
    (op : i.opcode = .lt ∨ i.opcode = .gt ∨ i.opcode = .eq)
    (first : i.value m.frames 1 = .ok a) (second : i.value m.frames 2 = .ok b) :
    m.Compares devices image i a b := by
  -- A comparison combines two values, and what it yields is stored like any result.
  have reduced : i.effect image.labels m.frames = i.opcode.combine a b >>= i.assigning := by
    refine Instruction.effect_of_combining ?_ first second
    rcases op with op | op | op <;> rw [op] <;> decide
  have counted : i.opcode ≠ .label := by
    rcases op with op | op | op <;> rw [op] <;> decide
  constructor
  · intro answer x type combined destination declared
    exact (stores fetched counted destination reduced).stored answer type combined declared
  · intro cause combined
    exact advance_of_refusal fetched reduced combined

/-- A branch whose label is defined and whose sources have values decides by comparing them. -/
theorem branches (fetched : image.code[m.pc]? = some i)
    (op : i.opcode = .jumpIfEq ∨ i.opcode = .jumpIfNeq) {position : Nat}
    (target : i.target image.labels = .ok position)
    (first : i.value m.frames 1 = .ok a) (second : i.value m.frames 2 = .ok b) :
    m.Branches devices image i position a b := by
  -- The two branches differ in the answer that they want.
  have reduced : i.effect image.labels m.frames =
      match a.equals? b with
      | none => .error (.wrongTypes i.opcode)
      | some equal =>
        .ok (if equal = decide (i.opcode = .jumpIfEq) then .jump position else .skip) := by
    rw [← Instruction.branching_eq target first second, Instruction.effect]
    -- What the operation wants is what its name says.
    rcases op with op | op <;> rw [op] <;> rfl
  have counted : i.opcode ≠ .label := by
    rcases op with op | op <;> rw [op] <;> decide
  constructor
  · intro equal compared
    rw [Opcode.answer_eq_ok_iff.mp compared] at reduced
    rw [advance_of_effect fetched reduced]
    -- A branch that is not taken has no effect, and goes on behind itself.
    split
    · rw [Machine.perform, Outcome.complete, Machine.complete, if_neg counted]
    · rw [Machine.perform, Outcome.complete, Machine.complete, if_neg counted]
  · intro cause compared
    rw [(Opcode.answer_eq_error_iff.mp compared).1] at reduced
    exact advance_of_cause fetched reduced

end Machine

/--
Comparisons cohere with each other, for all values and in all states.

For two values of a type other than nil, exactly one of the three comparisons comes out true. They
go by one order, in which integers are compared as numbers, false comes before true, and texts are
compared by code points, which is the same as by bytes. Values of different types and nil are in no
order, while equality is defined between nil and anything. What a comparison yields is stored, and
a branch decides in every state as the comparison for equality does.
-/
theorem comparisons_cohere :
    (∀ a b : Value, a.dataType = b.dataType → a ≠ .nil →
      Opcode.Answers a b true false false ∨ Opcode.Answers a b false true false ∨
        Opcode.Answers a b false false true) ∧
    (∀ a b answer, Opcode.gt.combine a b = .ok answer ↔ Opcode.lt.combine b a = .ok answer) ∧
    (∀ a b c, Opcode.lt.combine a b = .ok (.bool true) →
      Opcode.lt.combine b c = .ok (.bool true) → Opcode.lt.combine a c = .ok (.bool true)) ∧
    (∀ a b, Opcode.lt.combine a b = .ok (.bool true) ↔ a.Less b) ∧
    (∀ s t, Text.bytes s < Text.bytes t ↔ Text.codePoints s < Text.codePoints t) ∧
    (∀ a b : Value, a.dataType ≠ b.dataType ∨ a = .nil ∨ b = .nil →
      Opcode.lt.combine a b = .error (.wrongTypes .lt) ∧
        Opcode.gt.combine a b = .error (.wrongTypes .gt)) ∧
    (∀ a b, Opcode.eq.combine a b =
      if a.dataType ≠ b.dataType ∧ a ≠ .nil ∧ b ≠ .nil then .error (.wrongTypes .eq)
      else .ok (.bool (decide (a = b)))) ∧
    ∀ (devices : Devices) (image : Image) (m : Machine) (i : Instruction) (a b : Value),
      image.code[m.pc]? = some i → i.value m.frames 1 = .ok a → i.value m.frames 2 = .ok b →
        (i.opcode = .lt ∨ i.opcode = .gt ∨ i.opcode = .eq → m.Compares devices image i a b) ∧
        (i.opcode = .jumpIfEq ∨ i.opcode = .jumpIfNeq → ∀ position,
          i.target image.labels = .ok position → m.Branches devices image i position a b) := by
  -- All comparisons ask one test of the order and one of equality.
  refine ⟨fun a b => Opcode.exists_answers, ?_, ?_, ?_, ?_, ?_, fun a b => Opcode.combine_eq, ?_⟩
  · -- Both ask the same test, and name themselves only where it has no answer.
    intro a b answer
    rw [Opcode.combine, Opcode.combine]
    cases b.below? a <;> simp [Opcode.answer]
  · intro a b c first second
    rw [Opcode.lt_eq_true_iff] at first second ⊢
    exact first.trans second
  · exact fun a b => Opcode.lt_eq_true_iff
  · intro s t
    rw [Text.bytes_lt_iff, Text.codePoints_lt_iff]
  · intro a b apart
    rw [Opcode.combine_lt, Opcode.combine_gt, if_pos apart, if_pos apart]
    exact ⟨rfl, rfl⟩
  · intro devices image m i a b fetched first second
    constructor
    · intro op
      exact Machine.compares fetched op first second
    · intro op position target
      exact Machine.branches fetched op target first second

/-- A comparison of two texts whose characters differ in width, and a branch that compares nil. -/
def comparingWidths : Image :=
  { code := #[⟨.lt, 1, [.var ⟨.globalFrame, "x"⟩, .literal (.string "\uffee"),
        .literal (.string "😀")]⟩,
      ⟨.jumpIfNeq, 2, [.label "end", .literal .nil, .literal (.int 0)]⟩,
      ⟨.exit, 3, [.literal (.int 1)]⟩, ⟨.label, 4, [.label "end"]⟩],
    labels := [("end", 3)] }

/-- A machine with a variable that is to hold the answer. -/
def beforeComparison : Machine :=
  { Machine.fresh [] with
    frames := { globals := ⟨[("x", none)]⟩, temporary := none, locals := [] } }

/-- The text of three bytes is less than that of four, and nil is not equal to a number. -/
theorem comparisons_cohere_of_comparingWidths :
    Text.bytes "\uffee" < Text.bytes "😀" ∧
    ∃ n, beforeComparison.advance .willing comparingWidths = .next n ∧
      n.frames.read ⟨.globalFrame, "x"⟩ = .ok (.bool true) ∧
      n.advance .willing comparingWidths =
        .next { n with pc := 3, executed := 2, last := some .jumpIfNeq } := by
  obtain ⟨_, _, _, order, bytes, _, equality, states⟩ := comparisons_cohere
  have below : Text.codePoints "\uffee" < Text.codePoints "😀" := by decide
  refine ⟨(bytes _ _).mpr below, ?_⟩
  have less := (order _ _).mpr (.string below)
  have compared := (states .willing comparingWidths beforeComparison _ _ _ rfl rfl rfl).1 (.inl rfl)
  obtain ⟨frames, assigned, read, next⟩ := compared.stored _ ⟨.globalFrame, "x"⟩ none less rfl rfl
  refine ⟨_, next, read, ?_⟩
  -- The branch finds its operands without looking at any variable.
  have unequal : Opcode.eq.combine .nil (.int 0) = .ok (.bool false) := (equality _ _).trans rfl
  let n : Machine := { beforeComparison with frames, pc := 1, executed := 1, last := some .lt }
  have branches := (states .willing comparingWidths n _ _ _ rfl rfl rfl).2 (.inr rfl) 3 rfl
  exact branches.decided false unequal

end ThreeAddress

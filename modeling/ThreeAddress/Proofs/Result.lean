import Mathlib.Data.List.Forall2

/-!
Results of steps taken one after another: where they succeed, with what, and how they fail. Steps
that pass a list relate its elements to their results, one by one.
-/

namespace ThreeAddress

variable {ε α β : Type}

/-- Two steps succeed exactly when the first does and the second does on its result. -/
theorem bind_eq_ok_iff {first : Except ε α} {next : α → Except ε β} {b : β} :
    first >>= next = .ok b ↔ ∃ a, first = .ok a ∧ next a = .ok b := by
  -- An error skips the second step, and a value is all that the second step is given.
  cases first with
  | error e => simp [Bind.bind, Except.bind]
  | ok a => simp [Bind.bind, Except.bind]

/-- Two steps fail exactly when the first does, or the second does on its result. -/
theorem bind_eq_error_iff {first : Except ε α} {next : α → Except ε β} {e : ε} :
    first >>= next = .error e ↔ first = .error e ∨ ∃ a, first = .ok a ∧ next a = .error e := by
  -- Behind an error nothing happens, and behind a value only the second step can fail.
  cases first with
  | error e => simp [Bind.bind, Except.bind]
  | ok a => simp [Bind.bind, Except.bind]

/-- Rewording errors makes no success and prevents none. -/
theorem mapError_eq_ok_iff {δ : Type} {result : Except ε α} {reword : ε → δ} {a : α} :
    result.mapError reword = .ok a ↔ result = .ok a := by
  -- Rewording touches neither of the two constructors, so each side is the same value.
  cases result with
  | error e => exact iff_of_false nofun nofun
  | ok b =>
    constructor
    · rintro ⟨⟩
      rfl
    · rintro ⟨⟩
      rfl

/-- Rewording changes the words of an error alone. -/
theorem mapError_eq_error_iff {δ : Type} {result : Except ε α} {reword : ε → δ} {d : δ} :
    result.mapError reword = .error d ↔ ∃ e, result = .error e ∧ d = reword e := by
  -- The rewording is not asked for a value, and there is one error for it to reword.
  cases result with
  | error e =>
    constructor
    · rintro ⟨⟩
      exact ⟨e, rfl, rfl⟩
    · rintro ⟨_, ⟨⟩, rfl⟩
      rfl
  | ok a =>
    refine iff_of_false nofun ?_
    rintro ⟨_, ⟨⟩, _⟩

/-- What is made of a result is made of its value. -/
theorem map_eq_ok_iff {result : Except ε α} {f : α → β} {b : β} :
    result.map f = .ok b ↔ ∃ a, result = .ok a ∧ b = f a := by
  -- An error passes through, and a value is what the function is applied to.
  cases result with
  | error e => simp [Except.map]
  | ok a => simp [Except.map, eq_comm]

/-- What is made of a result fails exactly as the result does. -/
theorem map_eq_error_iff {result : Except ε α} {f : α → β} {e : ε} :
    result.map f = .error e ↔ result = .error e := by
  -- The function is applied to values only, so it makes no error and removes none.
  cases result with
  | error d => simp [Except.map]
  | ok a => simp [Except.map]

/-- The values and the errors that a result can be, each told by a condition of its own. -/
structure EndsAs (result : Except ε α) (good : α → Prop) (bad : ε → Prop) : Prop where
  ok_iff : ∀ a, result = .ok a ↔ good a
  error_iff : ∀ e, result = .error e ↔ bad e

namespace EndsAs

variable {result : Except ε α} {good : α → Prop} {bad : ε → Prop}

/-- Conditions tell a result if they are met by nothing else, and by something. -/
theorem of_total (sound : ∀ a, good a → result = .ok a) (refused : ∀ e, bad e → result = .error e)
    (total : (∃ a, good a) ∨ ∃ e, bad e) : EndsAs result good bad := by
  -- Whichever condition is met, the result is what met it, and nothing else.
  refine ⟨fun a => ⟨fun done => ?_, sound a⟩, fun e => ⟨fun failed => ?_, refused e⟩⟩
  · rcases total with ⟨b, fine⟩ | ⟨e, wrong⟩
    · cases done.symm.trans (sound b fine)
      exact fine
    · cases done.symm.trans (refused e wrong)
  · rcases total with ⟨b, fine⟩ | ⟨d, wrong⟩
    · cases failed.symm.trans (sound b fine)
    · cases failed.symm.trans (refused d wrong)
      exact wrong

/-- A value is all that it can be. -/
theorem value {a : α} (only : ∀ b, good b ↔ b = a) (never : ∀ e, ¬ bad e) :
    EndsAs (.ok a) good bad :=
  ⟨fun b => ⟨fun done => (only b).mpr (Except.ok.inj done).symm,
    fun fine => congrArg Except.ok ((only b).mp fine).symm⟩, fun e => iff_of_false nofun (never e)⟩

/-- An error is all that it can be. -/
theorem failure {e : ε} (never : ∀ a, ¬ good a) (only : ∀ d, bad d ↔ d = e) :
    EndsAs (.error e) good bad :=
  ⟨fun a => iff_of_false nofun (never a), fun d => ⟨fun failed => (only d).mpr
    (Except.error.inj failed).symm, fun wrong => congrArg Except.error ((only d).mp wrong).symm⟩⟩

/-- A lookup fails exactly where there is nothing to be found. -/
theorem lookup {found : Option α} {e : ε} (hit : ∀ a, found = some a → result = .ok a)
    (miss : found = none → result = .error e) (known : ∀ a, found = some a ↔ good a) :
    EndsAs result good (fun d => (∀ a, ¬ good a) ∧ d = e) := by
  -- What was found is the only good value, and without it no value is good.
  cases sought : found with
  | none =>
    have never (a : α) : ¬ good a := by
      rw [← known a, sought]
      exact nofun
    rw [miss sought]
    exact failure never fun d => ⟨And.right, fun same => ⟨never, same⟩⟩
  | some a =>
    have only (b : α) : good b ↔ b = a := by
      rw [← known b, sought, Option.some.injEq, eq_comm]
    rw [hit a sought]
    exact value only fun d h => h.1 a ((only a).mpr rfl)

/-- A result has one outcome, however its conditions are put. -/
theorem congr (h : EndsAs result good bad) {fine : α → Prop} {wrong : ε → Prop}
    (values : ∀ a, good a ↔ fine a) (errors : ∀ e, bad e ↔ wrong e) :
    EndsAs result fine wrong :=
  ⟨fun a => (h.ok_iff a).trans (values a), fun e => (h.error_iff e).trans (errors e)⟩

/-- Two steps end as the second one does on a value of the first, or fail with the first. -/
theorem bind (h : EndsAs result good bad) {next : α → Except ε β} {fine : α → β → Prop}
    {wrong : α → ε → Prop} (behind : ∀ a, good a → EndsAs (next a) (fine a) (wrong a)) :
    EndsAs (result >>= next) (fun b => ∃ a, good a ∧ fine a b)
      (fun e => bad e ∨ ∃ a, good a ∧ wrong a e) := by
  -- The first step decides which of the two speaks, and then each speaks for itself.
  constructor
  · intro b
    rw [bind_eq_ok_iff]
    refine exists_congr fun a => ?_
    rw [h.ok_iff]
    exact and_congr_right fun first => (behind a first).ok_iff b
  · intro e
    rw [bind_eq_error_iff, h.error_iff]
    refine or_congr_right (exists_congr fun a => ?_)
    rw [h.ok_iff]
    exact and_congr_right fun first => (behind a first).error_iff e

/-- Rewording leaves the values alone. -/
theorem mapError {δ : Type} (h : EndsAs result good bad) (reword : ε → δ) :
    EndsAs (result.mapError reword) good (fun d => ∃ e, bad e ∧ d = reword e) := by
  -- Values are left as they are, and each error comes from one that was reworded.
  constructor
  · intro a
    rw [mapError_eq_ok_iff, h.ok_iff]
  · intro d
    rw [mapError_eq_error_iff]
    exact exists_congr fun e => and_congr_left fun _ => h.error_iff e

end EndsAs

section Related

variable {R : α → β → Prop} {l : List α} {l' : List β}

/-- Each element of a list that is related to another one is related to an element of that. -/
theorem exists_of_mem_right (related : List.Forall₂ R l l') {b : β} (member : b ∈ l') :
    ∃ a, R a b := by
  -- The element stands at some place, and at that place the other list has its partner.
  induction related with
  | nil => cases member
  | cons first rest ih =>
    rcases List.mem_cons.mp member with rfl | later
    · exact ⟨_, first⟩
    · exact ih later

/-- A list is related to another one if each of its elements is related to anything. -/
theorem exists_forall₂ (each : ∀ a ∈ l, ∃ b, R a b) : ∃ l', List.Forall₂ R l l' := by
  -- The partners are picked one by one, in the sequence of the elements.
  induction l with
  | nil => exact ⟨[], .nil⟩
  | cons a rest ih =>
    obtain ⟨⟨b, first⟩, others⟩ := List.forall_mem_cons.mp each
    obtain ⟨behind, later⟩ := ih others
    exact ⟨b :: behind, .cons first later⟩

end Related

/-- A list with an element that is wrong in some way, and only fine elements before it. -/
inductive FirstWrong (fine : α → Prop) (wrong : α → ε → Prop) : List α → ε → Prop where
  | here {a : α} {rest : List α} {e : ε} (bad : wrong a e) : FirstWrong fine wrong (a :: rest) e
  | behind {a : α} {rest : List α} {e : ε} (good : fine a)
      (later : FirstWrong fine wrong rest e) : FirstWrong fine wrong (a :: rest) e

/-- Some element of such a list is wrong. -/
theorem FirstWrong.exists_wrong {fine : α → Prop} {wrong : α → ε → Prop} {l : List α} {e : ε}
    (h : FirstWrong fine wrong l e) : ∃ a ∈ l, wrong a e := by
  -- The first wrong element is one of them, however many good ones precede it.
  induction h with
  | @here a rest e bad => exact ⟨a, List.mem_cons_self, bad⟩
  | behind good later ih =>
    obtain ⟨a, member, bad⟩ := ih
    exact ⟨a, List.mem_cons_of_mem _ member, bad⟩

/-- The first wrong element stands at some index, and all elements at lower ones are fine. -/
theorem firstWrong_iff {fine : α → Prop} {wrong : α → ε → Prop} {l : List α} {e : ε} :
    FirstWrong fine wrong l e ↔ ∃ (k : Nat) (a : α), l[k]? = some a ∧ wrong a e ∧
      ∀ (j : Nat) (b : α), j < k → l[j]? = some b → fine b := by
  constructor
  · intro h
    -- Each fine element in front moves the index of the wrong one by one.
    induction h with
    | @here a rest e bad => exact ⟨0, a, rfl, bad, fun j _ small => absurd small j.not_lt_zero⟩
    | @behind a rest e good later ih =>
      obtain ⟨k, b, found, bad, before⟩ := ih
      refine ⟨k + 1, b, found, bad, fun j c small there => ?_⟩
      cases j with
      | zero => exact Option.some.inj there ▸ good
      | succ j => exact before j c (Nat.lt_of_succ_lt_succ small) there
  · intro ⟨k, a, found, bad, before⟩
    induction l generalizing k with
    | nil => cases found
    | cons first rest ih =>
      cases k with
      | zero =>
        cases found
        exact .here bad
      | succ k =>
        have good := before 0 first (Nat.succ_pos k) rfl
        refine .behind good (ih k found fun j b small there => ?_)
        exact before (j + 1) b (Nat.succ_lt_succ small) there

/-- A list is passed if each element is, and otherwise fails as the first wrong element does. -/
theorem EndsAs.mapM {δ : Type} {step : α → Except ε β} {yields : δ → β → Prop}
    {wrong : δ → ε → Prop} {l : List δ} {l' : List α}
    (each : List.Forall₂ (fun d a => EndsAs (step a) (yields d) (wrong d)) l l') :
    EndsAs (l'.mapM step) (List.Forall₂ yields l)
      (FirstWrong (fun d => ∃ b, yields d b) wrong l) := by
  induction each with
  | nil => exact .value (fun results => List.forall₂_nil_left_iff) nofun
  | @cons d a rest rest' first others ih =>
    -- The first element is passed, and its result is put before those of the others.
    have behind (b : β) : EndsAs (rest'.mapM step >>= fun others => .ok (b :: others)) _ _ :=
      ih.bind fun others _ => .value (fun results => Iff.rfl) (fun _ => not_false)
    have whole := first.bind fun b _ => behind b
    rw [List.mapM_cons]
    refine whole.congr (fun results => ?_) fun e => ?_
    · rw [List.forall₂_cons_left_iff]
      constructor
      · rintro ⟨b, passed, behind, later, rfl⟩
        exact ⟨b, behind, passed, later, rfl⟩
      · rintro ⟨b, behind, passed, later, rfl⟩
        exact ⟨b, passed, behind, later, rfl⟩
    · constructor
      · rintro (bad | ⟨b, passed, bad | ⟨_, _, nothing⟩⟩)
        · exact .here bad
        · exact .behind ⟨b, passed⟩ bad
        · cases nothing
      · intro found
        cases found with
        | here bad => exact .inl bad
        | behind good later =>
          obtain ⟨b, passed⟩ := good
          exact .inr ⟨b, passed, .inl later⟩

/-- Every error that a result can be satisfies a condition. -/
def FailsOnly (allowed : ε → Prop) (result : Except ε α) : Prop :=
  ∀ e, result = .error e → allowed e

/-- A success has no error at all. -/
theorem FailsOnly.ok (allowed : ε → Prop) (a : α) : FailsOnly allowed (.ok a) := by
  -- There is nothing to show of errors that do not occur.
  intro e failed
  cases failed

/-- An error satisfies what it satisfies. -/
theorem FailsOnly.error {allowed : ε → Prop} {e : ε} (fine : allowed e) :
    FailsOnly allowed (.error e : Except ε α) := by
  -- The error that occurs is the one that is known to be allowed.
  intro other failed
  cases failed
  exact fine

/-- Errors that satisfy a condition satisfy any weaker one. -/
theorem FailsOnly.weaken {strict allowed : ε → Prop} {result : Except ε α}
    (only : FailsOnly strict result) (weaker : ∀ e, strict e → allowed e) :
    FailsOnly allowed result :=
  fun e failed => weaker e (only e failed)

/-- Rewording passes errors on, one by one. -/
theorem FailsOnly.mapError {δ : Type} {allowed : δ → Prop} {result : Except ε α} {reword : ε → δ}
    (only : FailsOnly (fun e => allowed (reword e)) result) :
    FailsOnly allowed (result.mapError reword) := by
  -- Each error of the result is a reworded one, which is allowed once it is reworded.
  intro d failed
  obtain ⟨e, raised, rfl⟩ := mapError_eq_error_iff.mp failed
  exact only e raised

/-- Two steps fail only as one of them fails. -/
theorem FailsOnly.bind {allowed : ε → Prop} {first : Except ε α} {next : α → Except ε β}
    (start : FailsOnly allowed first) (rest : ∀ a, FailsOnly allowed (next a)) :
    FailsOnly allowed (first >>= next) := by
  -- The first step either fails itself or leaves the failing to the second one.
  cases first with
  | error e => exact FailsOnly.error (start e rfl)
  | ok a => exact rest a

/-- Every value that a result can have satisfies a condition. -/
def YieldsOnly (allowed : α → Prop) (result : Except ε α) : Prop :=
  ∀ a, result = .ok a → allowed a

/-- A success has one value. -/
theorem YieldsOnly.ok {allowed : α → Prop} {a : α} (fine : allowed a) :
    YieldsOnly allowed (.ok a : Except ε α) := by
  -- The value that is yielded is the one that is known to be allowed.
  intro other done
  cases done
  exact fine

/-- An error has no value at all. -/
theorem YieldsOnly.error (allowed : α → Prop) (e : ε) :
    YieldsOnly allowed (.error e : Except ε α) := by
  -- There is nothing to show of values that are not yielded.
  intro a done
  cases done

/-- Two steps yield what the second one does, whatever the first one yields. -/
theorem YieldsOnly.bind {allowed : β → Prop} {first : Except ε α} {next : α → Except ε β}
    (rest : ∀ a, YieldsOnly allowed (next a)) : YieldsOnly allowed (first >>= next) := by
  -- A value of both steps is one that the second step yields in the end.
  intro b done
  obtain ⟨a, _, last⟩ := bind_eq_ok_iff.mp done
  exact rest a b last

end ThreeAddress

import ThreeAddress.CommandLine.Report
import ThreeAddress.Proofs.Machine.Messages
import ThreeAddress.Proofs.Machine.Reading
import ThreeAddress.Proofs.Machine.Slots
import ThreeAddress.Proofs.Machine.Transcript

/-!
What is written is read back. Lines with the texts that were written for some values give these
values to the variables that they are read into, and behind the last line only nil is read.
-/

namespace ThreeAddress

open CommandLine (Report)
open Input (Begins Converts Entry LineEnd transcript)

namespace Machine

/-- The next step of a machine is a read of a type into a variable that is declared. -/
structure Asks (image : Image) (m : Machine) (x : Variable) (t : DataType) : Prop where
  fetched : ∃ order, image.code[m.pc]? = some ⟨.read, order, [.var x, .type t]⟩
  typed : t ≠ .nil
  declared : ∃ type, m.frames.typeOf x = .ok type

/-- The next step of a machine gives a value to a variable, and leaves a rest of the input. -/
structure Receives (devices : Devices) (image : Image) (m : Machine) (x : Variable) (value : Value)
    (rest : List UInt8) (n : Machine) : Prop where
  next : m.advance devices image = .next n
  assigned : m.frames.assign x value = .ok n.frames
  read : n.frames.read x = .ok value
  /-- Nothing else changes, but for the counting of instructions. -/
  others : n = { m with
    frames := n.frames, input := rest, pc := m.pc + 1, executed := m.executed + 1,
    last := some .read }

variable {devices : Devices} {image : Image} {m n : Machine} {x : Variable} {t : DataType}
  {value : Value} {rest : List UInt8} {line : String}

/-- A read into a declared variable gives it what the input is worth, and never fails. -/
theorem Asks.receives (asks : m.Asks image x t) (devices : Devices) :
    ∃ n, m.Receives devices image x (Input.value t (Input.next m.input).1)
      (Input.next m.input).2 n := by
  obtain ⟨⟨order, fetched⟩, typed, type, declared⟩ := asks
  -- A variable that is declared can be assigned, whatever the value is.
  obtain ⟨frames, assigned⟩ :=
    Frames.assign_of_typeOf declared (Input.value t (Input.next m.input).1)
  have reduced : Instruction.effect ⟨.read, order, [.var x, .type t]⟩ image.labels m.frames =
      .ok (.receive x t) := by
    simp [Instruction.effect, Instruction.requested, Instruction.destination, typed, Bind.bind,
      Except.bind, Pure.pure, Except.pure]
  have held := (Frames.assign_spec assigned).2.1
  let n : Machine := { m with
    frames, input := (Input.next m.input).2, pc := m.pc + 1, executed := m.executed + 1,
    last := some .read }
  refine ⟨n, ?_, assigned, Frames.read_eq_ok_iff.mpr (Frames.slot_eq_ok_iff.mpr held), rfl⟩
  rw [advance_of_effect fetched reduced, Machine.perform,
    receive_of_known (m := { m with pc := m.pc + 1 }) declared assigned]
  rfl

/-- A line of a text gives the variable what the text converts to. -/
theorem Asks.receives_line (asks : m.Asks image x t) (begins : Begins m.input line rest)
    (converts : Converts line t value) (devices : Devices) :
    ∃ n, m.Receives devices image x value rest n := by
  -- What a line of the input converts to is what reading makes of it.
  have receives := asks.receives devices
  rwa [Input.begins_iff.mp begins, Input.value, ← converts.eq] at receives

/-- Where there is no line of a text, the variable becomes nil. -/
theorem Asks.receives_nil (asks : m.Asks image x t)
    (none : ∀ line rest, ¬ Begins m.input line rest) (devices : Devices) :
    ∃ n, m.Receives devices image x .nil (Input.next m.input).2 n := by
  -- What is read would be the text of a line.
  have receives := asks.receives devices
  cases read : (Input.next m.input).1 with
  | none => rwa [read] at receives
  | some line => exact absurd (Input.begins_iff.mpr (Prod.ext read rfl)) (none line _)

/-- An entry of a transcript gives the variable the value that it tells. -/
theorem Asks.receives_entry {e : Entry} {entries : List Entry}
    (asks : m.Asks image x e.value.dataType) (unread : m.input = transcript (e :: entries))
    (devices : Devices) :
    ∃ n, m.Receives devices image x e.value (transcript entries) n := by
  -- The entry stands in front of all that is unread.
  have receives := asks.receives devices
  rw [transcript, List.flatMap_cons, ← transcript] at unread
  obtain ⟨told, left⟩ := e.value_next (transcript entries)
  rwa [unread, told, left] at receives

/-- Behind the last entry of a transcript, the variable becomes nil. -/
theorem Asks.receives_end (asks : m.Asks image x t) (unread : m.input = []) (devices : Devices) :
    ∃ n, m.Receives devices image x .nil [] n := by
  -- At the end of the input there is no line, and no line is nil.
  have receives := asks.receives devices
  rwa [unread] at receives

/-- Every declared variable is still declared after one of them was given a value. -/
theorem Receives.declared (receives : m.Receives devices image x value rest n) {y : Variable}
    (declared : ∃ type, m.frames.typeOf y = .ok type) : ∃ type, n.frames.typeOf y = .ok type := by
  -- The variable has a value now, and the slots of all others are what they were.
  by_cases same : y = x
  · have held := Frames.read_eq_ok_iff.mp receives.read
    rw [same]
    exact ⟨_, Frames.typeOf_eq_ok_iff.mpr ⟨_, held, rfl⟩⟩
  · have kept := (Frames.assign_spec receives.assigned).2.2.slot_eq same
    rwa [Frames.typeOf, kept]

/-- The next steps of a machine are reads of some entries, each into a declared variable. -/
def AsksAll (image : Image) (m : Machine) (requests : List (Variable × Entry)) : Prop :=
  ∀ (k : Nat) (x : Variable) (e : Entry), requests[k]? = some (x, e) →
    { m with pc := m.pc + k }.Asks image x e.value.dataType

/-- The first of some reads takes its entry, and leaves the machine at the reads behind it. -/
theorem AsksAll.receives {e : Entry} {others : List (Variable × Entry)}
    (asks : m.AsksAll image ((x, e) :: others))
    (unread : m.input = transcript (e :: others.map Prod.snd)) (devices : Devices) :
    ∃ n, m.Receives devices image x e.value (transcript (others.map Prod.snd)) n ∧
      n.AsksAll image others := by
  have first : m.Asks image x e.value.dataType := asks 0 x e rfl
  obtain ⟨n, receives⟩ := first.receives_entry unread devices
  refine ⟨n, receives, ?_⟩
  intro k y f found
  obtain ⟨fetched, typed, declared⟩ := asks (k + 1) y f found
  -- The instruction is the same, counted from one position further on.
  have moved : n.pc = m.pc + 1 := by rw [receives.others]
  refine ⟨?_, typed, receives.declared declared⟩
  rw [moved, Nat.add_assoc, Nat.add_comm 1]
  exact fetched

/-- Reads one after another take one entry of a transcript after another. -/
theorem run_transcript {requests : List (Variable × Entry)} (asks : m.AsksAll image requests)
    (unread : m.input = transcript (requests.map Prod.snd)) (devices : Devices) {k : Nat}
    (few : k ≤ requests.length) :
    ∃ n, m.run devices image k = .next n ∧
      n.input = transcript ((requests.drop k).map Prod.snd) ∧
      n.AsksAll image (requests.drop k) := by
  -- Each step takes the first of the reads that are left.
  induction k with
  | zero =>
    rw [List.drop_zero]
    exact ⟨m, rfl, unread, asks⟩
  | succ k ih =>
    obtain ⟨n, ran, left, asks⟩ := ih (Nat.le_of_succ_le few)
    rw [List.drop_eq_getElem_cons few] at left asks
    obtain ⟨after, receives, later⟩ := asks.receives left devices
    refine ⟨after, run_succ_eq_next_iff.mpr ⟨n, ran, receives.next⟩, ?_, later⟩
    rw [receives.others]

/-- A value that is written shows up as its rendering, behind what was written before. -/
theorem advance_write {i : Instruction} (fetched : image.code[m.pc]? = some i)
    (op : i.opcode = .write) (source : i.value m.frames 0 = .ok value)
    (taken : devices.refusal .out (m.console.outCount + 1) = none) :
    ∃ n, m.advance devices image = .next n ∧
      Report.written n.console .out = Report.written m.console .out ++ value.render := by
  -- The rendering is computed from the operand before the device is asked.
  have reduced : i.effect image.labels m.frames = .ok (.write .out value.render) := by
    rw [Instruction.effect, op]
    dsimp only
    rw [source]
    rfl
  rw [advance_of_effect fetched reduced, Machine.perform]
  by_cases empty : value.render = ""
  · -- Nothing is written, and nothing shows up.
    rw [empty]
    exact ⟨_, rfl, String.append_empty.symm⟩
  · -- The device takes the text, which becomes the latest of all.
    rw [write_of_ne_empty empty, show Console.count _ .out = m.console.outCount from rfl, taken]
    refine ⟨_, rfl, ?_⟩
    unfold Report.written
    simp [Console.record, complete, Console.bump, String.join_append, String.join_cons]

end Machine

/-- The entries that are not read yet are those behind the ones that were read since the start. -/
theorem Program.LeftBehindAfter.unread {p : Program} {entries : List Entry} {done steps : Nat}
    {m last : Machine} {devices : Devices} {image : Image}
    (left : p.LeftBehindAfter (transcript entries) done m)
    (ran : Machine.run devices image steps { m with pc := 0 } = .next last) :
    last.input = transcript
      (entries.drop (done + Machine.reads devices image steps { m with pc := 0 })) := by
  -- Each read since the start took one line, and each line was one entry.
  rw [← Input.dropLines_transcript]
  exact (left.readsAt ran).unread

/--
What is written is read back.

Writing a value shows its rendering. The renderings of values that fit a line make up a transcript
of these values, with either end behind each, and a transcript may have blanks around its numbers
and truth values. Reads one after another give the values of a transcript to their variables, in
their sequence, and so do the reads of any program, whatever it does in between and however often it
is executed. Behind the last line nil is read. In general, a line of a text gives a variable what
the text converts to, and a line that is no text gives it nil.
-/
theorem what_is_written_is_read_back :
    (∀ devices (image : Image) (m : Machine) i value, image.code[m.pc]? = some i →
      i.opcode = .write → i.value m.frames 0 = .ok value →
        devices.refusal .out (m.console.outCount + 1) = none →
          ∃ n, m.advance devices image = .next n ∧
            Report.written n.console .out = Report.written m.console .out ++ value.render) ∧
    (∀ (values : List Value) (ending : LineEnd), (∀ v ∈ values, v.FitsLine) →
      ∃ entries : List Entry, entries.map Entry.value = values ∧
        transcript entries = values.flatMap fun v => Text.bytes v.render ++ ending.bytes) ∧
    (∀ devices image (m : Machine) (requests : List (Variable × Entry)),
      m.AsksAll image requests → m.input = transcript (requests.map Prod.snd) →
        (∀ (k : Nat) x e, requests[k]? = some (x, e) → ∃ n after,
          m.run devices image k = .next n ∧
            n.Receives devices image x e.value
              (transcript ((requests.drop (k + 1)).map Prod.snd)) after) ∧
        ∃ n, m.run devices image requests.length = .next n ∧
          ∀ x t, n.Asks image x t → ∃ after, n.Receives devices image x .nil [] after) ∧
    (∀ (p : Program) (entries : List Entry) done m,
      p.LeftBehindAfter (transcript entries) done m → ∀ image, p.link = .ok image →
        ∀ devices steps last, Machine.run devices image steps { m with pc := 0 } = .next last →
          ∀ k, k = done + Machine.reads devices image steps { m with pc := 0 } →
            (∀ x e, entries[k]? = some e → last.Asks image x e.value.dataType → ∃ n,
              last.Receives devices image x e.value (transcript (entries.drop (k + 1))) n) ∧
            (entries.length ≤ k → ∀ x t, last.Asks image x t → ∃ n,
              last.Receives devices image x .nil [] n)) ∧
    ∀ devices image (m : Machine) x t, m.Asks image x t →
      (∀ line rest, Begins m.input line rest → ∃ value, Converts line t value ∧
        (∀ other, Converts line t other → other = value) ∧
        ∃ n, m.Receives devices image x value rest n) ∧
      ((∀ line rest, ¬ Begins m.input line rest) → ∃ n,
        m.Receives devices image x .nil (Input.dropLines 1 m.input) n) := by
  refine ⟨?_, ?_, ?_, ?_, ?_⟩
  · intro devices image m i value fetched op source taken
    exact Machine.advance_write fetched op source taken
  · intro values ending fit
    exact Input.exists_transcript fit ending
  · intro devices image m requests asks unread
    constructor
    · -- After as many steps, the request is the first of those that are left.
      intro k x e found
      obtain ⟨within, same⟩ := List.getElem?_eq_some_iff.mp found
      obtain ⟨n, ran, left, asks⟩ :=
        Machine.run_transcript asks unread devices (Nat.le_of_lt within)
      rw [List.drop_eq_getElem_cons within, same] at left asks
      obtain ⟨after, receives, _⟩ := asks.receives left devices
      exact ⟨n, after, ran, receives⟩
    · -- After all of them, nothing is left of the input.
      obtain ⟨n, ran, left, _⟩ := Machine.run_transcript asks unread devices (Nat.le_refl _)
      rw [List.drop_length] at left
      exact ⟨n, ran, fun x t asks => asks.receives_end left devices⟩
  · rintro p entries done m left image linked devices steps last ran k rfl
    -- As many entries are gone as reads have succeeded since the machine was new.
    have unread := left.unread ran
    constructor
    · intro x e found asks
      obtain ⟨within, same⟩ := List.getElem?_eq_some_iff.mp found
      rw [List.drop_eq_getElem_cons within, same] at unread
      exact asks.receives_entry unread devices
    · intro all x t asks
      rw [List.drop_eq_nil_iff.mpr all] at unread
      exact asks.receives_end unread devices
  · intro devices image m x t asks
    constructor
    · intro line rest begins
      -- What the line converts to is told by its text alone.
      have converts := Input.converts_convert asks.typed line
      exact ⟨_, converts, fun other second => second.eq, asks.receives_line begins converts devices⟩
    · intro none
      rw [Input.dropLines_one]
      exact asks.receives_nil none devices

/-- A number with blanks around it, on a line that has a carriage return at its end. -/
def paddedNumber : Entry :=
  { value := .int (-7)
    line := " -7\u3000"
    ending := .returned
    whole := by decide
    tells := .int ⟨[' '], ['\u3000'], by decide, List.forall_mem_singleton.mpr (by decide),
      List.forall_mem_singleton.mpr (by decide)⟩ }

/-- A text that begins with a blank and has a carriage return within it. -/
def spacedText : Entry :=
  { value := .string " a\rb"
    line := " a\rb"
    ending := .plain
    whole := by decide
    tells := .string (by decide) }

/-- Three reads into one variable: of a number, of a text and of a truth value. -/
def threeReads : Image :=
  { code := #[⟨.read, 1, [.var ⟨.globalFrame, "x"⟩, .type .int]⟩,
      ⟨.read, 2, [.var ⟨.globalFrame, "x"⟩, .type .string]⟩,
      ⟨.read, 3, [.var ⟨.globalFrame, "x"⟩, .type .bool]⟩]
    labels := [] }

/-- A machine with a global variable, whose input is a line with a number and one with a text. -/
def listener : Machine :=
  { Machine.fresh (Text.bytes " -7\u3000\r\n a\rb\n") with
    frames := { globals := ⟨[("x", none)]⟩, temporary := none, locals := [] } }

/-- The text is read behind the number just as it was written, and nil is read behind both. -/
theorem what_is_written_is_read_back_of_listener :
    (∃ n after, listener.run .willing threeReads 1 = .next n ∧
      n.Receives .willing threeReads ⟨.globalFrame, "x"⟩ (.string " a\rb") [] after) ∧
    ∃ n after, listener.run .willing threeReads 2 = .next n ∧
      n.Receives .willing threeReads ⟨.globalFrame, "x"⟩ .nil [] after := by
  let x : Variable := ⟨.globalFrame, "x"⟩
  have unread : listener.input = transcript [paddedNumber, spacedText] := by decide
  have asks : listener.AsksAll threeReads [(x, paddedNumber), (x, spacedText)] := by
    intro k y e found
    match k with
    | 0 =>
      cases found
      exact ⟨⟨1, rfl⟩, by decide, none, by decide⟩
    | 1 =>
      cases found
      exact ⟨⟨2, rfl⟩, by decide, none, by decide⟩
    | k + 2 => cases found
  obtain ⟨_, _, back, _⟩ := what_is_written_is_read_back
  obtain ⟨each, n, ran, behind⟩ := back .willing threeReads listener _ asks unread
  -- The machine behind both lines has read twice, into the variable that it began with.
  let last : Machine := { listener with
    frames := { globals := ⟨[("x", some (.string " a\rb"))]⟩, temporary := none, locals := [] }
    input := [], pc := 2, executed := 2, last := some .read }
  obtain rfl : last = n := Outcome.next.inj (Eq.trans rfl ran)
  have asked : last.Asks threeReads x .bool := ⟨⟨3, rfl⟩, by decide, some .string, by decide⟩
  obtain ⟨after, receives⟩ := behind x .bool asked
  exact ⟨each 1 x spacedText rfl, last, after, ran, receives⟩

end ThreeAddress

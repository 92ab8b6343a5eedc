import ThreeAddress.CommandLine.Session
import ThreeAddress.Proofs.Result
import ThreeAddress.Proofs.Source.Acceptance
import ThreeAddress.Proofs.Text.Utf8

/-!
Which of the two loaders a text is meant for. The first character behind order marks and blanks
tells documents from source text, and each loader accepts only texts that are meant for it.
-/

namespace ThreeAddress

open Markup (Element)

/-- The blanks between words are blanks of Unicode as well. -/
theorem Text.isBlank_of_isAsciiBlank {c : Char} (blank : isAsciiBlank c = true) :
    isBlank c = true := by
  -- There are only five of them, and each is looked up.
  simp only [isAsciiBlank, Bool.or_eq_true, decide_eq_true_eq] at blank
  rcases blank with (((rfl | rfl) | rfl) | rfl) | rfl <;> decide

/-- The blanks of markup are blanks of Unicode as well. -/
theorem Markup.isBlank_of_isSpace {c : Char} (blank : isSpace c = true) :
    Text.isBlank c = true := by
  -- There are only four of them, and each is looked up.
  simp only [isSpace, Bool.or_eq_true, decide_eq_true_eq] at blank
  rcases blank with ((rfl | rfl) | rfl) | rfl <;> decide

/-- A text is meant as a document if a bracket stands first behind order marks and blanks. -/
theorem looksLikeMarkup_eq (marks blanks : List Char) {text : String} {rest : List Char} {c : Char}
    (parts : text.toList = marks ++ (blanks ++ c :: rest)) (marked : ∀ d ∈ marks, d = '\ufeff')
    (blank : ∀ d ∈ blanks, Text.isBlank d = true) (visible : Text.isBlank c = false)
    (unmarked : c ≠ '\ufeff') : looksLikeMarkup text = decide (c = '<') := by
  -- An order mark is no blank, so that the marks end where the blanks begin.
  have behindMarks : (blanks ++ c :: rest).dropWhile (· = '\ufeff') = blanks ++ c :: rest := by
    cases blanks with
    | nil => exact List.dropWhile_cons_of_neg (by simpa using unmarked)
    | cons d others =>
      refine List.dropWhile_cons_of_neg ?_
      have first := blank d List.mem_cons_self
      rw [decide_eq_true_eq]
      rintro rfl
      exact absurd first (by decide)
  unfold looksLikeMarkup
  rw [parts, List.dropWhile_append_of_pos fun d member => decide_eq_true (marked d member),
    behindMarks, List.dropWhile_append_of_pos blank,
    List.dropWhile_cons_of_neg (by rw [visible]; exact Bool.false_ne_true)]

namespace Source

/-- A blank before a line makes no difference to its words. -/
theorem lineWords_cons_of_blank {c : Char} (blank : Text.isAsciiBlank c = true)
    (line : List Char) : lineWords (c :: line) = lineWords line := by
  -- A blank begins neither a comment nor a word.
  have plain : c ≠ commentMark := by
    rintro rfl
    exact absurd blank (by decide)
  rw [lineWords, lineWords, List.takeWhile_cons_of_pos (by simpa using plain), words.eq_def]
  dsimp only
  rw [if_pos blank]

/-- A line that begins in a word has a first word that begins as the line does. -/
theorem lineWords_cons_of_visible {c : Char} (visible : Text.isAsciiBlank c = false)
    (plain : c ≠ commentMark) (line : List Char) :
    ∃ word others, lineWords (c :: line) = String.ofList (c :: word) :: others := by
  -- The character is a word of its own or joins the word behind it.
  rw [lineWords, List.takeWhile_cons_of_pos (by simpa using plain), words.eq_def]
  dsimp only
  rw [visible, if_neg Bool.false_ne_true]
  split
  · exact ⟨[], [], rfl⟩
  · split
    · exact ⟨[], _, rfl⟩
    · split
      · exact ⟨[], [], rfl⟩
      · exact ⟨_, _, rfl⟩

/-- A text with words begins, behind blanks, with a comment mark or as its first word does. -/
theorem first_visible {number : Nat} {text : List Char} {first : Line} {lines : List Line}
    {word : String} {words : List String}
    (numbered : numberLines number (cutLines text) = first :: lines)
    (spoken : first.words = word :: words) :
    ∃ blanks c rest, text = blanks ++ c :: rest ∧ (∀ d ∈ blanks, Text.isAsciiBlank d = true) ∧
      (c = commentMark ∨ word.toList.head? = some c) := by
  induction text generalizing number with
  | nil => cases numbered
  | cons c rest ih =>
    cases blank : Text.isAsciiBlank c with
    | true =>
      -- Without the blank, the same lines have the same words.
      have later : ∃ number, numberLines number (cutLines rest) = first :: lines := by
        rw [cutLines] at numbered
        split at numbered
        · exact ⟨number + 1, numbered⟩
        · split at numbered
          · rw [numberLines, lineWords_cons_of_blank blank] at numbered
            cases numbered
          · rename_i line others cut
            rw [numberLines, lineWords_cons_of_blank blank, ← numberLines, ← cut] at numbered
            exact ⟨number, numbered⟩
      obtain ⟨number, later⟩ := later
      obtain ⟨blanks, d, others, rfl, allBlank, decides⟩ := ih later
      exact ⟨c :: blanks, d, others, rfl, List.forall_mem_cons.mpr ⟨blank, allBlank⟩, decides⟩
    | false =>
      refine ⟨[], c, rest, rfl, by simp, ?_⟩
      by_cases comment : c = commentMark
      · exact .inl comment
      · -- The first line begins with this character, and so does its first word.
        have inside : c ≠ '\n' := by
          rintro rfl
          exact absurd blank (by decide)
        have begun : ∃ line others, cutLines (c :: rest) = (c :: line) :: others := by
          rw [cutLines, if_neg inside]
          split <;> exact ⟨_, _, rfl⟩
        obtain ⟨line, others, cut⟩ := begun
        obtain ⟨letters, further, found⟩ := lineWords_cons_of_visible blank comment line
        rw [cut, numberLines, found] at numbered
        obtain ⟨rfl, _⟩ := List.cons.inj numbered
        obtain ⟨rfl, _⟩ := List.cons.inj spoken
        exact .inr (by simp)

/-- The first line with words of a text that is accepted is a header. -/
theorem header_of_assemble {text : String} {p : Program} (accepted : assemble text = .ok p) :
    ∃ first rest, numberLines 1 (cutLines text.toList) = first :: rest ∧ IsHeader first.words := by
  -- Both refusals come before anything is made of the other lines.
  unfold assemble at accepted
  dsimp only at accepted
  split at accepted
  · cases accepted
  · rename_i first rest numbered
    split at accepted
    · rename_i header
      exact ⟨first, rest, numbered, isHeader_iff.mp header⟩
    · cases accepted

private theorem eq_dot_of_toLower {c : Char} (lower : c.toLower = '.') : c = '.' := by
  -- A dot is no letter, and lower case is made of letters alone.
  unfold Char.toLower at lower
  split at lower
  · -- What becomes of a letter is a letter.
    rename_i upper
    have code := congrArg (fun d => d.val.toNat) lower
    have low := UInt32.le_iff_toNat_le.mp upper.1
    have high := UInt32.le_iff_toNat_le.mp upper.2
    simp [UInt32.toNat_add] at code low high
    omega
  · exact lower

/-- Source text that is accepted is not meant as a document. -/
theorem looksLikeMarkup_of_assemble {text : String} {p : Program}
    (accepted : assemble text = .ok p) : looksLikeMarkup text = false := by
  obtain ⟨first, rest, numbered, word, single, spelled⟩ := header_of_assemble accepted
  obtain ⟨blanks, c, others, parts, blank, decides⟩ := first_visible numbered single
  -- A header begins with a dot, whatever the case of its letters.
  have known : c = commentMark ∨ c = '.' := by
    refine decides.imp_right fun head => ?_
    have lower := congrArg List.head? spelled
    rw [List.head?_map, head] at lower
    exact eq_dot_of_toLower (Option.some.inj lower)
  have unicode : ∀ d ∈ blanks, Text.isBlank d = true := fun d member =>
    Text.isBlank_of_isAsciiBlank (blank d member)
  rcases known with rfl | rfl
  · exact looksLikeMarkup_eq [] blanks parts (by simp) unicode (by decide) (by decide)
  · exact looksLikeMarkup_eq [] blanks parts (by simp) unicode (by decide) (by decide)

/-- The listing of a program is not meant as a document. -/
theorem looksLikeMarkup_listing (p : Program) : looksLikeMarkup p.listing = false := by
  -- It begins with the header.
  have parts : ∃ rest, p.listing.toList = '.' :: rest := by
    rw [Program.listing, List.map_cons, String.join_cons, String.toList_append]
    exact ⟨_, rfl⟩
  obtain ⟨rest, parts⟩ := parts
  exact looksLikeMarkup_eq [] [] parts (by simp) (by simp) (by decide) (by decide)

end Source

namespace Markup

/-- A text that begins with a bracket, but for an order mark and blanks of markup. -/
def IsBracketed (text : String) : Prop :=
  ∃ marks blanks rest, text.toList = marks ++ (blanks ++ '<' :: rest) ∧
    (marks = [] ∨ marks = ['\ufeff']) ∧ ∀ c ∈ blanks, isSpace c = true

/-- A text that begins with a bracket is meant as a document. -/
theorem IsBracketed.looksLikeMarkup {text : String} (h : IsBracketed text) :
    looksLikeMarkup text = true := by
  -- One order mark or none is skipped, and so are the blanks of markup.
  obtain ⟨marks, blanks, rest, parts, single, blank⟩ := h
  have marked : ∀ d ∈ marks, d = '\ufeff' := by
    rcases single with rfl | rfl <;> simp
  exact looksLikeMarkup_eq marks blanks parts marked
    (fun d member => isBlank_of_isSpace (blank d member)) (by decide) (by decide)

/-- Before the root there is no text but blanks, which make no difference. -/
theorem blank_of_rootOfTokens {raw : List Char} {tokens : List Token} {root : Element}
    (built : rootOfTokens? (.text raw :: tokens) = some root) :
    raw.all isSpace = true ∧ rootOfTokens? tokens = some root := by
  -- No element is open yet that could hold the text.
  simp only [rootOfTokens?, List.foldlM_cons, Option.bind_eq_bind, Option.bind_assoc] at built
  obtain ⟨d, stepped, built⟩ := Option.bind_eq_some_iff.mp built
  simp only [Draft.step, Draft.empty, List.isEmpty_nil, if_true] at stepped
  split at stepped
  · rename_i blank
    obtain rfl := Option.some.inj stepped
    exact ⟨blank, built⟩
  · cases stepped

/-- Tokens that make a tree begin with markup, but for a text of blanks. -/
theorem bracketed_of_tokens {body : List Char} {tokens : List Token} {root : Element}
    (read : readAll readToken readToken_shortens body = some tokens)
    (built : rootOfTokens? tokens = some root) :
    ∃ blanks rest, body = blanks ++ '<' :: rest ∧ ∀ c ∈ blanks, isSpace c = true := by
  cases body with
  | nil =>
    rw [readAll] at read
    cases read
    cases built
  | cons c body =>
    by_cases bracket : c = '<'
    · exact ⟨[], body, by rw [bracket, List.nil_append], by simp⟩
    · -- A text comes first, which must be blank, and then the rest begins with markup.
      rw [readAll] at read
      split at read
      · cases read
      · rename_i first behind taken
        obtain ⟨others, later, rfl⟩ := Option.map_eq_some_iff.mp read
        rw [readToken, if_neg bracket] at taken
        obtain ⟨rfl, rfl⟩ := Prod.mk.inj (Option.some.inj taken)
        obtain ⟨blank, continued⟩ := blank_of_rootOfTokens built
        refine ⟨c :: body.takeWhile (· ≠ '<'), ?_⟩
        cases markup : body.dropWhile (· ≠ '<') with
        | nil =>
          -- Blanks alone make no tree.
          rw [markup, readAll] at later
          cases later
          cases continued
        | cons d rest =>
          have stopped := List.head?_dropWhile_not (· ≠ '<') body
          rw [markup] at stopped
          obtain rfl : d = '<' := by simpa using stopped
          refine ⟨rest, ?_, List.all_eq_true.mp blank⟩
          rw [List.cons_append, ← markup, List.takeWhile_append_dropWhile]

/-- A document that has a root begins with a bracket. -/
theorem isBracketed_of_root {text : String} {root : Element} (read : root? text = some root) :
    IsBracketed text := by
  -- The order mark comes off first, and then what comes first is a declaration or a token.
  obtain ⟨tokens, tokenized, built⟩ := Option.bind_eq_some_iff.mp read
  have marked : ∃ marks, text.toList = marks ++ dropOrderMark text.toList ∧
      (marks = [] ∨ marks = ['\ufeff']) := by
    cases text.toList with
    | nil => exact ⟨[], rfl, .inl rfl⟩
    | cons c rest =>
      rw [dropOrderMark]
      split
      · rename_i mark
        exact ⟨['\ufeff'], by rw [mark, List.singleton_append], .inr rfl⟩
      · exact ⟨[], rfl, .inl rfl⟩
  obtain ⟨marks, parts, single⟩ := marked
  suffices ∃ blanks rest, dropOrderMark text.toList = blanks ++ '<' :: rest ∧
      ∀ c ∈ blanks, isSpace c = true by
    obtain ⟨blanks, rest, body, blank⟩ := this
    exact ⟨marks, blanks, rest, by rw [← body]; exact parts, single, blank⟩
  unfold tokens? at tokenized
  dsimp only at tokenized
  split at tokenized
  · -- A declaration begins with a bracket, and without one the tokens begin at once.
    unfold skipDeclaration? at tokenized
    split at tokenized
    · rename_i declared
      obtain ⟨rest, declared⟩ := List.isPrefixOf_iff_prefix.mp declared
      exact ⟨[], _, declared.symm, by simp⟩
    · exact bracketed_of_tokens tokenized built
  · cases tokenized

end Markup

section Reader

variable {read : String → Option Element}
  (bracketed : ∀ text root, read text = some root → Markup.IsBracketed text) {text : String}
  {p : Program}

include bracketed

/-- A document that is accepted is meant as one, if its reader accepts no other texts. -/
theorem Document.looksLikeMarkup_of_loadWith (loaded : Document.loadWith read text = .ok p) :
    looksLikeMarkup text = true := by
  -- A document is accepted only where its reader found a root.
  unfold Document.loadWith at loaded
  split at loaded
  · cases loaded
  · rename_i root found
    exact (bracketed text root found).looksLikeMarkup

/-- A program is loaded exactly where one of the two loaders accepts the text. -/
theorem Program.loadWith_eq_ok_iff : Program.loadWith read text = .ok p ↔
    Source.assemble text = .ok p ∨ Document.loadWith read text = .ok p := by
  -- What is not meant for a loader is not accepted by it.
  unfold Program.loadWith
  split
  · rename_i meant
    rw [mapError_eq_ok_iff]
    refine ⟨.inr, fun accepted => accepted.resolve_left fun assembled => ?_⟩
    rw [Source.looksLikeMarkup_of_assemble assembled] at meant
    cases meant
  · rename_i unmeant
    rw [mapError_eq_ok_iff]
    refine ⟨.inl, fun accepted => accepted.resolve_right fun loaded => ?_⟩
    exact unmeant (Document.looksLikeMarkup_of_loadWith bracketed loaded)

end Reader

/-- The bytes of a text hold the program that the text holds, wherever they come from. -/
theorem CommandLine.loadContent_toUTF8 (origin : Origin) (text : String) :
    loadContent origin (.ok text.toUTF8.data.toList) =
      (Program.load text).mapError .unloadable := by
  -- The bytes of a text are decoded to the text.
  have decoded : String.fromUTF8? ⟨text.toUTF8.data.toList.toArray⟩ = some text :=
    Text.fromUTF8?_eq_some_iff.mpr rfl
  rw [loadContent, decoded]

/--
Nothing is lost by choosing the loader by the first character behind order marks and blanks.

Whatever reads documents, as long as it accepts only texts that begin with a bracket behind at most
one order mark and blanks of markup: source text that is accepted is not meant as a document, and a
document that is accepted is. So no text is accepted by both loaders, and a program is loaded
exactly where one of them accepts the text. A listing always goes to the loader of source text. The
reader of this library is such a reader, so that the same holds of the bytes an action is given.
-/
theorem choice_of_loader_loses_nothing {read : String → Option Element}
    (bracketed : ∀ text root, read text = some root → Markup.IsBracketed text) :
    (∀ text p, Source.assemble text = .ok p → looksLikeMarkup text = false) ∧
    (∀ text p, Document.loadWith read text = .ok p → looksLikeMarkup text = true) ∧
    (∀ text p q, Source.assemble text = .ok p → Document.loadWith read text ≠ .ok q) ∧
    (∀ text p, Program.loadWith read text = .ok p ↔
      Source.assemble text = .ok p ∨ Document.loadWith read text = .ok p) ∧
    (∀ p : Program, looksLikeMarkup p.listing = false ∧
      Program.loadWith read p.listing = (Source.assemble p.listing).mapError .source) ∧
    ∀ origin (text : String) p,
      CommandLine.loadContent origin (.ok text.toUTF8.data.toList) = .ok p ↔
        Source.assemble text = .ok p ∨ Document.load text = .ok p := by
  -- The text itself tells which loader it is for, and the other one refuses it.
  refine ⟨fun _ _ => Source.looksLikeMarkup_of_assemble,
    fun _ _ => Document.looksLikeMarkup_of_loadWith bracketed, fun text p q assembled loaded => ?_,
    fun _ _ => Program.loadWith_eq_ok_iff bracketed, fun p => ?_, fun origin text p => ?_⟩
  · have meant := Document.looksLikeMarkup_of_loadWith bracketed loaded
    rw [Source.looksLikeMarkup_of_assemble assembled] at meant
    cases meant
  · have unmeant := Source.looksLikeMarkup_listing p
    exact ⟨unmeant, by rw [Program.loadWith, unmeant, if_neg Bool.false_ne_true]⟩
  · -- The reader of this library accepts only texts that begin with a bracket, too.
    rw [CommandLine.loadContent_toUTF8, mapError_eq_ok_iff]
    exact Program.loadWith_eq_ok_iff fun text root => Markup.isBracketed_of_root

/-- A document behind an order mark and blanks. -/
def indented : String :=
  "\ufeff\n\t<program language=\"IPPcode23\"/>"

/-- A source text behind a comment that holds a document. -/
def remarkable : String :=
  " \x0c# <program/>\n.IPPcode23\n"

/-- Each loader accepts the text that is meant for it, and the other one does not. -/
theorem choice_of_loader_loses_nothing_of_indented :
    Document.load indented = .ok ⟨[]⟩ ∧ Program.load indented = .ok ⟨[]⟩ ∧
      Source.assemble remarkable = .ok ⟨[]⟩ ∧ Program.load remarkable = .ok ⟨[]⟩ ∧
      Document.load remarkable ≠ .ok ⟨[]⟩ := by
  -- Each text is loaded by the loader that it is meant for, which excludes the other one.
  have document : Document.load indented = .ok ⟨[]⟩ := by decide +kernel
  have source : Source.assemble remarkable = .ok ⟨[]⟩ := by decide +kernel
  obtain ⟨_, _, exclusive, either, _⟩ :=
    choice_of_loader_loses_nothing fun text root => Markup.isBracketed_of_root
  exact ⟨document, (either _ _).mpr (.inr document), source, (either _ _).mpr (.inl source),
    exclusive _ _ _ source⟩

end ThreeAddress

/-
  ConstraintNet.Proofs.AcceptedText
  ─────────────────────────────────
  **THE READER ACCEPTS THE LANGUAGE OF NETWORK FILES.**

  The language of `Grammar` and the reader meet in two places.  A text is
  taken apart into the same words by both, so a reading of the text goes
  through the stages that its words lead to:

      `readFrom_of_spells`, `exists_word_of_next?`  — words and lexemes
      `readFrom_eq_ok_iff`                          — a reading accepts words

  What is left is about words alone.  `Reading.Accepts` is compared with the
  grammar one stage at a time, from the end of a file to its start: whatever a
  stage has read already, what it still accepts is a piece of the grammar and
  what the next stage accepts.

      `exists_pairs_of_accepts`, `accepts_of_pairs`    — the pairs of a block
      `exists_blocks_of_accepts`, `accepts_of_blocks`  — all blocks
      `accepts_ranges`, `accepts_start_iff`            — the whole file

  Main result: `contents?_eq_ok_iff`.
-/
import ConstraintNet.Proofs.Grammar
import ConstraintNet.Proofs.WrittenText

namespace ConstraintNet

/-! ## §1. Lexemes of words. -/

namespace NetworkText

def Mark.lexeme : Mark → Lexeme
  | .constraint => .constraintMark
  | .openParen => .openParen
  | .comma => .comma
  | .closeParen => .closeParen

/-- What the reader makes of a word: it does not tell large numbers apart. -/
def Word.lexeme : Word → Lexeme
  | .number negative n => .number negative (min n Lexeme.magnitudeLimit)
  | .mark m => m.lexeme

/-- Only a mark is read as that mark. -/
@[simp] theorem Word.lexeme_eq_mark_iff {w : Word} {m : Mark} :
    w.lexeme = m.lexeme ↔ w = .mark m := by
  cases w with
  | number negative n => cases m <;> simp [Word.lexeme, Mark.lexeme]
  | mark m' => cases m <;> cases m' <;> simp [Word.lexeme, Mark.lexeme]

/-- A word is read as a position when it is a number without sign, of 64 bits. -/
theorem Word.index?_lexeme_iff {w : Word} {n : Nat} : index? w.lexeme = some n ↔ w.IsIndex n := by
  have hlimit : Lexeme.magnitudeLimit = 18446744073709551616 := by decide
  have hsize : UInt64.size = 18446744073709551616 := rfl
  unfold Word.IsIndex
  cases w with
  | number negative k =>
    cases negative with
    | false =>
      show (if min k Lexeme.magnitudeLimit < 1 <<< 64 then some (min k Lexeme.magnitudeLimit)
        else none) = some n ↔ _
      rw [hlimit, hsize]
      simp only [Option.ite_none_right_eq_some, Option.some.injEq, number.injEq, true_and]
      omega
    | true => simp [Word.lexeme, index?]
  | mark m => cases m <;> simp [Word.lexeme, Mark.lexeme, index?]

/-- A word is read as a value when it is a number of 32 bits. -/
theorem Word.integer?_lexeme_iff {w : Word} {v : Value} :
    integer? w.lexeme = some v ↔ w.IsInteger v := by
  have hbounds := Value.toInt_bounds v
  have hlimit : Lexeme.magnitudeLimit = 18446744073709551616 := by decide
  unfold Word.IsInteger
  cases w with
  | number negative k =>
    -- a value is far below the limit
    have hsame : (v.toInt = if negative then -((min k Lexeme.magnitudeLimit : Nat) : Int)
          else (min k Lexeme.magnitudeLimit : Nat)) ↔
        v.toInt = if negative then -(k : Int) else k := by
      rw [hlimit]
      cases negative with
      | false =>
        simp only [Bool.false_eq_true, if_false]
        omega
      | true =>
        simp only [if_true]
        omega
    show Value.ofInt? (if negative then -((min k Lexeme.magnitudeLimit : Nat) : Int)
      else (min k Lexeme.magnitudeLimit : Nat)) = some v ↔ _
    rw [Value.ofInt?_eq_some_iff, hsame]
    constructor
    · exact fun h => ⟨negative, k, rfl, h⟩
    · rintro ⟨_, _, heq, h⟩
      obtain ⟨rfl, rfl⟩ := Word.number.inj heq
      exact h
  | mark m => cases m <;> simp [Word.lexeme, Mark.lexeme, integer?]

end NetworkText

/-! ## §2. Texts and their words. -/

namespace Lexeme

open NetworkText

/-- At the end of a line a comment is over. -/
theorem skipComment?_of_endsLine {text : List Char} (h : EndsLine text) :
    skipComment? text = some text := by
  rcases h with rfl | ⟨rest, rfl⟩ | ⟨rest, rfl⟩
  · rfl
  · rfl
  · rfl

/-- What is skipped as a comment is one. -/
theorem exists_comment {text after : List Char} (h : skipComment? text = some after) :
    ∃ body, text = body ++ after ∧ (∀ c ∈ body, c ≠ '\n' ∧ c ≠ '\r') ∧ EndsLine after := by
  fun_induction skipComment? text with
  -- the end of the text, or of the line in either way, is where the comment ends
  | case1 =>
    cases h
    exact ⟨[], rfl, by simp, Or.inl rfl⟩
  | case2 rest =>
    cases h
    exact ⟨[], rfl, by simp, Or.inr (Or.inl ⟨rest, rfl⟩)⟩
  | case3 rest =>
    cases h
    exact ⟨[], rfl, by simp, Or.inr (Or.inr ⟨rest, rfl⟩)⟩
  | case4 => cases h
  -- any other character belongs to the comment
  | case5 c text hfeed _ hreturn ih =>
    obtain ⟨body, rfl, hbody, hend⟩ := ih h
    refine ⟨c :: body, rfl, ?_, hend⟩
    intro d hd
    rcases List.mem_cons.1 hd with rfl | hd
    · exact ⟨hfeed, hreturn⟩
    · exact hbody d hd

/-- Four characters count as spaces. -/
theorem isSpace_iff {c : Char} :
    isSpace c = true ↔ c = ' ' ∨ c = '\t' ∨ c = '\r' ∨ c = '\n' := by
  unfold isSpace
  simp only [Bool.or_eq_true, decide_eq_true_eq, or_assoc]

/-- What is skipped spells no word. -/
theorem spells_skipSpace (text : List Char) : Spells text [] (skipSpace text) := by
  fun_induction skipSpace text with
  | case1 rest after hafter ih =>
    obtain ⟨body, rfl, hbody, hend⟩ := exists_comment hafter
    exact .comment hbody hend ih
  | case2 => exact .done _
  | case3 c rest _ hspace ih => exact .space (isSpace_iff.1 hspace) ih
  | case4 => exact .done _
  | case5 => exact .done _

/-- Digits with all the digits after them are a number. -/
theorem spells_readNumber (negative : Bool) {digit : Char} (hdigit : digit.isDigit = true)
    (rest : List Char) : ∃ w, w.lexeme = (readNumber negative digit rest).1 ∧
      Spells (signOf negative ++ digit :: rest) [w] (readNumber negative digit rest).2 := by
  let digits := digit :: rest.takeWhile Char.isDigit
  have hsplit : digit :: rest = digits ++ rest.dropWhile Char.isDigit := by
    rw [List.cons_append, List.takeWhile_append_dropWhile]
  have hdigits : ∀ d ∈ digits, d.isDigit = true := by
    intro d hd
    rcases List.mem_cons.1 hd with rfl | hd
    · exact hdigit
    · exact List.all_eq_true.1 List.all_takeWhile d hd
  have hlongest : ∀ c ∈ (rest.dropWhile Char.isDigit).head?, c.isDigit = false := by
    intro c hc
    have hstop := List.head?_dropWhile_not Char.isDigit rest
    rw [Option.mem_def.1 hc] at hstop
    exact hstop
  -- the word has all digits, the lexeme only their capped magnitude
  refine ⟨.number negative (Nat.ofDigitChars 10 digits 0), ?_, ?_⟩
  · show Lexeme.number negative (min _ _) = .number negative (magnitudeOf digits)
    rw [magnitudeOf_eq]
  · rw [hsplit]
    exact .number negative (by simp [digits]) hdigits hlongest (.done _)

/-- What is read is a word, unless it is no lexeme of the format. -/
theorem exists_word_of_read {c : Char} {rest after : List Char} {lexeme : Lexeme}
    (h : read c rest = (lexeme, after)) (hminus : lexeme ≠ .minus) (hknown : lexeme ≠ .unknown) :
    ∃ w, w.lexeme = lexeme ∧ Spells (c :: rest) [w] after := by
  have hmark (m : Mark) (rest : List Char) : ∃ w, w.lexeme = m.lexeme ∧
      Spells (m.char :: rest) [w] rest := ⟨.mark m, rfl, .mark m (.done rest)⟩
  unfold read at h
  split at h
  · next hdigit =>
    have hnumber := spells_readNumber false hdigit rest
    rw [h] at hnumber
    exact hnumber
  split at h
  · next hc =>
    subst hc
    split at h
    · next digit rest' =>
      split at h
      · next hdigit =>
        have hnumber := spells_readNumber true hdigit rest'
        rw [h] at hnumber
        exact hnumber
      · exact absurd (Prod.mk.inj h).1.symm hminus
    · exact absurd (Prod.mk.inj h).1.symm hminus
  -- the four marks
  split at h
  · next hc =>
    obtain ⟨rfl, rfl⟩ := Prod.mk.inj h
    exact hc ▸ hmark .constraint rest
  split at h
  · next hc =>
    obtain ⟨rfl, rfl⟩ := Prod.mk.inj h
    exact hc ▸ hmark .openParen rest
  split at h
  · next hc =>
    obtain ⟨rfl, rfl⟩ := Prod.mk.inj h
    exact hc ▸ hmark .comma rest
  split at h
  · next hc =>
    obtain ⟨rfl, rfl⟩ := Prod.mk.inj h
    exact hc ▸ hmark .closeParen rest
  · exact absurd (Prod.mk.inj h).1.symm hknown

/-- A lexeme that is neither a lone sign nor unknown is that of a word which stands in the text. -/
theorem exists_word_of_next? {text start after : List Char} {lexeme : Lexeme}
    (h : next? text = some (lexeme, start, after)) (hminus : lexeme ≠ .minus)
    (hknown : lexeme ≠ .unknown) : ∃ w, w.lexeme = lexeme ∧ Spells text [w] after := by
  have hskip := spells_skipSpace text
  unfold next? at h
  split at h
  next => cases h
  next c rest heq =>
    rw [heq] at hskip
    simp only [Option.some.injEq, Prod.mk.injEq] at h
    obtain ⟨hlexeme, -, hafter⟩ := h
    obtain ⟨w, hw, hspells⟩ := exists_word_of_read (Prod.ext hlexeme hafter) hminus hknown
    exact ⟨w, hw, hskip.append hspells⟩

/-- A text without a lexeme spells no word. -/
theorem spells_of_end {text : List Char} (h : next? text = none) : Spells text [] [] := by
  have hskip := spells_skipSpace text
  unfold next? at h
  split at h
  next heq =>
    rw [heq] at hskip
    exact hskip
  next => cases h

/-- A mark is read as itself. -/
theorem next?_mark (m : Mark) (rest : List Char) :
    next? (m.char :: rest) = some (m.lexeme, m.char :: rest, rest) := by
  cases m with
  | constraint => exact next?_cons (by decide) (by decide) rest
  | openParen => exact next?_cons (by decide) (by decide) rest
  | comma => exact next?_cons (by decide) (by decide) rest
  | closeParen => exact next?_cons (by decide) (by decide) rest

/-- A number is read with all its digits, if no digit follows them. -/
theorem next?_digits (negative : Bool) {digits rest : List Char} (hne : digits ≠ [])
    (hdigits : ∀ d ∈ digits, d.isDigit = true) (hrest : ∀ c ∈ rest.head?, c.isDigit = false) :
    next? (signOf negative ++ (digits ++ rest)) =
      some ((Word.number negative (Nat.ofDigitChars 10 digits 0)).lexeme,
        signOf negative ++ (digits ++ rest), rest) := by
  obtain ⟨digit, digits, rfl⟩ := List.exists_cons_of_ne_nil hne
  obtain ⟨hdigit, htail⟩ := List.forall_mem_cons.1 hdigits
  have hnumber := readNumber_digits negative digit htail hrest
  cases negative with
  | false =>
    obtain ⟨hspace, hslash, -⟩ := not_space_of_isDigit hdigit
    have hread : read digit (digits ++ rest) = readNumber false digit (digits ++ rest) :=
      if_pos hdigit
    show next? (digit :: (digits ++ rest)) = _
    rw [next?_cons hspace hslash, hread, hnumber]
    rfl
  | true =>
    have hread : read '-' (digit :: (digits ++ rest)) = readNumber true digit (digits ++ rest) :=
      if_pos hdigit
    show next? ('-' :: digit :: (digits ++ rest)) = _
    rw [next?_cons (by decide) (by decide), hread, hnumber]
    rfl

end Lexeme

namespace NetworkText

/-! ## §3. A reading goes through the words of its text. -/

/-- What has been read after these words; `none` when a stage does not admit one of them. -/
def Reading.through? (r : Reading) : List Word → Option Reading
  | [] => some r
  | w :: words => (step r w.lexeme).bind fun r' => r'.through? words

/-- The reading may go through these words to the end of a file, which then lists `contents`. -/
def Reading.Accepts (r : Reading) (words : List Word)
    (contents : List Bounds × List Constraint) : Prop :=
  ∃ r', r.through? words = some r' ∧ r'.finish? = some contents

variable {r r' : Reading} {text rest : List Char} {w : Word} {words : List Word}
  {contents : List Bounds × List Constraint}

/-- Without words, a reading accepts what it has when it may stop. -/
@[simp] theorem accepts_nil : r.Accepts [] contents ↔ r.finish? = some contents := by
  simp [Reading.Accepts, Reading.through?]

/-- A word leads the reading to its next stage. -/
@[simp] theorem accepts_cons :
    r.Accepts (w :: words) contents ↔
      ∃ r', step r w.lexeme = some r' ∧ r'.Accepts words contents := by
  constructor
  · rintro ⟨last, hthrough, hfinish⟩
    obtain ⟨r', hstep, hrest⟩ := Option.bind_eq_some_iff.1 hthrough
    exact ⟨r', hstep, last, hrest, hfinish⟩
  · rintro ⟨r', hstep, last, hrest, hfinish⟩
    exact ⟨last, Option.bind_eq_some_iff.2 ⟨r', hstep, hrest⟩, hfinish⟩

/-- **Words lead a reading through their text.** -/
theorem readFrom_of_spells (h : Spells text words rest) (hthrough : r.through? words = some r') :
    readFrom r text = readFrom r' rest := by
  induction h generalizing r with
  | done rest =>
    cases hthrough
    rfl
  | space hspace _ ih =>
    rw [readFrom_congr (Lexeme.skipSpace_space (Lexeme.isSpace_iff.2 hspace) _), ih hthrough]
  | comment hbody hend _ ih =>
    have hskip := Lexeme.skipSpace_comment hbody (Lexeme.skipComment?_of_endsLine hend)
    rw [readFrom_congr hskip, ih hthrough]
  | number negative hne hdigits hlongest _ ih =>
    obtain ⟨r₁, hstep, hrest⟩ := Option.bind_eq_some_iff.1 hthrough
    rw [readFrom_of_next? (Lexeme.next?_digits negative hne hdigits hlongest) hstep, ih hrest]
  | mark m _ ih =>
    obtain ⟨r₁, hstep, hrest⟩ := Option.bind_eq_some_iff.1 hthrough
    rw [readFrom_of_next? (Lexeme.next?_mark m _) hstep, ih hrest]

/-- No stage admits a lexeme that is not a word. -/
theorem known_of_step {lexeme : Lexeme} (h : step r lexeme = some r') :
    lexeme ≠ .minus ∧ lexeme ≠ .unknown := by
  obtain ⟨bounds, constraints, stage⟩ := r
  constructor
  · rintro rfl
    cases stage <;> simp [step, index?, integer?] at h
  · rintro rfl
    cases stage <;> simp [step, index?, integer?] at h

/-- **A reading accepts a text when it accepts its words.** -/
theorem readFrom_eq_ok_iff :
    readFrom r text = .ok contents ↔ ∃ words, Spells text words [] ∧ r.Accepts words contents := by
  constructor
  · intro h
    fun_induction readFrom r text with
    | case1 r text hend found hfinish =>
      cases h
      exact ⟨[], Lexeme.spells_of_end hend, accepts_nil.2 hfinish⟩
    | case2 => cases h
    | case3 r text lexeme start after hnext r' hstep ih =>
      obtain ⟨words, hspells, haccepts⟩ := ih h
      obtain ⟨hminus, hknown⟩ := known_of_step hstep
      obtain ⟨w, rfl, hword⟩ := Lexeme.exists_word_of_next? hnext hminus hknown
      exact ⟨w :: words, hword.append hspells, accepts_cons.2 ⟨r', hstep, haccepts⟩⟩
    | case4 => cases h
  · rintro ⟨words, hspells, r', hthrough, hfinish⟩
    rw [readFrom_of_spells hspells hthrough, readFrom_nil hfinish]

/-! ## §4. Stages that want one word. -/

/-- A reading accepts nothing more or a word that leads to a reading that accepts the rest. -/
theorem accepts_iff :
    r.Accepts words contents ↔ (words = [] ∧ r.finish? = some contents) ∨
      ∃ w rest r', words = w :: rest ∧ step r w.lexeme = some r' ∧ r'.Accepts rest contents := by
  cases words with
  | nil => simp
  | cons w rest =>
    rw [accepts_cons]
    constructor
    · rintro ⟨r', hstep, haccepts⟩
      exact .inr ⟨w, rest, r', rfl, hstep, haccepts⟩
    · rintro (⟨⟨⟩, -⟩ | ⟨_, _, r', ⟨⟩, hstep, haccepts⟩)
      exact ⟨r', hstep, haccepts⟩

/-- A stage that may not stop wants a word. -/
theorem accepts_word (hfinish : r.finish? = none) :
    r.Accepts words contents ↔
      ∃ w rest r', words = w :: rest ∧ step r w.lexeme = some r' ∧ r'.Accepts rest contents := by
  rw [accepts_iff, hfinish]
  simp only [reduceCtorEq, and_false, false_or]

/-- A stage that wants a mark accepts this mark and what follows it. -/
theorem accepts_mark (m : Mark) (hfinish : r.finish? = none)
    (hstep : ∀ lexeme, step r lexeme = if lexeme = m.lexeme then some r' else none) :
    r.Accepts words contents ↔ ∃ rest, words = .mark m :: rest ∧ r'.Accepts rest contents := by
  rw [accepts_word hfinish]
  constructor
  · rintro ⟨w, rest, r₁, rfl, h, haccepts⟩
    rw [hstep, Option.ite_none_right_eq_some, Word.lexeme_eq_mark_iff] at h
    obtain ⟨rfl, ⟨⟩⟩ := h
    exact ⟨rest, rfl, haccepts⟩
  · rintro ⟨rest, rfl, haccepts⟩
    exact ⟨.mark m, rest, r', rfl, (hstep _).trans (if_pos rfl), haccepts⟩

/-- A stage that wants a number, which the word has to say. -/
theorem accepts_number {α : Type} {read? : Lexeme → Option α} {Means : Word → α → Prop}
    (hmeans : ∀ {w a}, read? w.lexeme = some a ↔ Means w a) {next : α → Reading}
    (hfinish : r.finish? = none) (hstep : ∀ lexeme, step r lexeme = (read? lexeme).map next) :
    r.Accepts words contents ↔
      ∃ w a rest, words = w :: rest ∧ Means w a ∧ (next a).Accepts rest contents := by
  rw [accepts_word hfinish]
  constructor
  · rintro ⟨w, rest, r₁, rfl, h, haccepts⟩
    rw [hstep] at h
    obtain ⟨a, ha, rfl⟩ := Option.map_eq_some_iff.1 h
    exact ⟨w, a, rest, rfl, hmeans.1 ha, haccepts⟩
  · rintro ⟨w, a, rest, rfl, ha, haccepts⟩
    refine ⟨w, rest, next a, rfl, ?_, haccepts⟩
    rw [hstep, hmeans.2 ha, Option.map_some]

/-! ## §5. Stages of the grammar. -/

variable {bounds : List Bounds} {constraints : List Constraint}

/-- The rest of a pair, and what comes after it. -/
theorem accepts_restOfPair {second : Reading} {next : Value → Reading}
    (hcomma : ∀ lexeme, step r lexeme = if lexeme = Mark.comma.lexeme then some second else none)
    (hsecond : ∀ lexeme, step second lexeme = (integer? lexeme).map next)
    (hfinish : r.finish? = none) (hfinish' : second.finish? = none) :
    r.Accepts words contents ↔ ∃ w b rest, words = .mark .comma :: w :: rest ∧ w.IsInteger b ∧
      (next b).Accepts rest contents := by
  rw [accepts_mark .comma hfinish hcomma]
  constructor
  · rintro ⟨rest, rfl, haccepts⟩
    obtain ⟨w, b, rest, rfl, hb, haccepts⟩ :=
      (accepts_number Word.integer?_lexeme_iff hfinish' hsecond).1 haccepts
    exact ⟨w, b, rest, rfl, hb, haccepts⟩
  · rintro ⟨w, b, rest, rfl, hb, haccepts⟩
    exact ⟨_, rfl, (accepts_number Word.integer?_lexeme_iff hfinish' hsecond).2
      ⟨w, b, rest, rfl, hb, haccepts⟩⟩

/-- The range of a variable. -/
theorem accepts_lower {left : Nat} :
    Reading.Accepts ⟨bounds, constraints, .lower left⟩ words contents ↔
      ∃ w w' a b rest, words = w :: .mark .comma :: w' :: rest ∧ w.IsInteger a ∧ w'.IsInteger b ∧
        Reading.Accepts ⟨⟨a, b⟩ :: bounds, constraints, stageOfLeft left⟩ rest contents := by
  rw [accepts_number Word.integer?_lexeme_iff rfl fun _ => rfl]
  constructor
  · rintro ⟨w, a, rest, rfl, ha, haccepts⟩
    obtain ⟨w', b, rest, rfl, hb, haccepts⟩ :=
      (accepts_restOfPair (fun _ => rfl) (fun _ => rfl) rfl rfl).1 haccepts
    exact ⟨w, w', a, b, rest, rfl, ha, hb, haccepts⟩
  · rintro ⟨w, w', a, b, rest, rfl, ha, hb, haccepts⟩
    exact ⟨w, a, _, rfl, ha, (accepts_restOfPair (fun _ => rfl) (fun _ => rfl) rfl rfl).2
      ⟨w', b, rest, rfl, hb, haccepts⟩⟩

/-- **Ranges.** The stage counts the variables that still need one. -/
theorem accepts_ranges {left : Nat} :
    Reading.Accepts ⟨bounds, constraints, stageOfLeft left⟩ words contents ↔
      ∃ (front rest : List Word) (ranges : List Bounds), words = front ++ rest ∧
        ranges.length = left ∧
        Pairs front (ranges.map fun b => (b.lower, b.upper)) ∧
        Reading.Accepts ⟨ranges.reverse ++ bounds, constraints, .constraints⟩ rest contents := by
  induction left generalizing bounds words with
  | zero =>
    constructor
    · exact fun h => ⟨[], words, [], rfl, rfl, .nil, h⟩
    · rintro ⟨front, rest, ranges, rfl, hlength, hpairs, haccepts⟩
      obtain rfl := List.length_eq_zero_iff.1 hlength
      cases hpairs
      exact haccepts
  | succ left ih =>
    show Reading.Accepts ⟨bounds, constraints, .lower left⟩ words contents ↔ _
    rw [accepts_lower]
    constructor
    -- one range goes in front, the others are those of the induction hypothesis
    · rintro ⟨w, w', a, b, rest, rfl, ha, hb, haccepts⟩
      obtain ⟨front, rest, ranges, rfl, hlength, hpairs, haccepts⟩ := ih.1 haccepts
      refine ⟨w :: .mark .comma :: w' :: front, rest, ⟨a, b⟩ :: ranges, rfl, ?_, ?_, ?_⟩
      · rw [List.length_cons, hlength]
      · exact .cons ha hb hpairs
      · rw [List.reverse_cons, List.append_assoc]
        exact haccepts
    · rintro ⟨front, rest, ranges, rfl, hlength, hpairs, haccepts⟩
      obtain ⟨⟨a, b⟩, ranges, rfl⟩ := List.exists_cons_of_length_eq_add_one hlength
      cases hpairs with
      | cons ha hb hpairs =>
        refine ⟨_, _, a, b, _, rfl, ha, hb, ih.2 ⟨_, rest, ranges, rfl, ?_, hpairs, ?_⟩⟩
        · exact Nat.succ.inj hlength
        · rw [List.reverse_cons, List.append_assoc] at haccepts
          exact haccepts

/-- The first line of a block. -/
theorem accepts_openParen :
    Reading.Accepts ⟨bounds, constraints, .openParen⟩ words contents ↔
      ∃ w w' i j rest, words = .mark .openParen :: w :: .mark .comma :: w' ::
          .mark .closeParen :: rest ∧ w.IsIndex i ∧ w'.IsIndex j ∧
        Reading.Accepts ⟨bounds, constraints, .pairs ⟨i, j, []⟩⟩ rest contents := by
  -- one fact for each of the five words of a head
  have hopen (words : List Word) :
      Reading.Accepts ⟨bounds, constraints, .openParen⟩ words contents ↔ _ :=
    accepts_mark .openParen rfl fun _ => rfl
  have hfirst (words : List Word) :
      Reading.Accepts ⟨bounds, constraints, .first⟩ words contents ↔ _ :=
    accepts_number Word.index?_lexeme_iff rfl fun _ => rfl
  have hcomma (i : Nat) (words : List Word) :
      Reading.Accepts ⟨bounds, constraints, .indexComma i⟩ words contents ↔ _ :=
    accepts_mark .comma rfl fun _ => rfl
  have hsecond (i : Nat) (words : List Word) :
      Reading.Accepts ⟨bounds, constraints, .second i⟩ words contents ↔ _ :=
    accepts_number Word.index?_lexeme_iff rfl fun _ => rfl
  have hclose (i j : Nat) (words : List Word) :
      Reading.Accepts ⟨bounds, constraints, .closeParen i j⟩ words contents ↔ _ :=
    accepts_mark .closeParen rfl fun _ => rfl
  constructor
  · intro h
    obtain ⟨_, rfl, h⟩ := (hopen _).1 h
    obtain ⟨w, i, _, rfl, hi, h⟩ := (hfirst _).1 h
    obtain ⟨_, rfl, h⟩ := (hcomma i _).1 h
    obtain ⟨w', j, _, rfl, hj, h⟩ := (hsecond i _).1 h
    obtain ⟨rest, rfl, h⟩ := (hclose i j _).1 h
    exact ⟨w, w', i, j, rest, rfl, hi, hj, h⟩
  · rintro ⟨w, w', i, j, rest, rfl, hi, hj, h⟩
    have h := (hsecond i _).2 ⟨w', j, _, rfl, hj, (hclose i j _).2 ⟨rest, rfl, h⟩⟩
    exact (hopen _).2 ⟨_, rfl, (hfirst _).2 ⟨w, i, _, rfl, hi, (hcomma i _).2 ⟨_, rfl, h⟩⟩⟩

/-- Where a block may start, the file may end as well. -/
theorem accepts_constraints :
    Reading.Accepts ⟨bounds, constraints, .constraints⟩ words contents ↔
      (words = [] ∧ contents = (bounds.reverse, constraints.reverse)) ∨
        ∃ rest, words = .mark .constraint :: rest ∧
          Reading.Accepts ⟨bounds, constraints, .openParen⟩ rest contents := by
  rw [accepts_iff]
  constructor
  · rintro (⟨rfl, hfinish⟩ | ⟨w, rest, r', rfl, hstep, haccepts⟩)
    · exact .inl ⟨rfl, (Option.some.inj hfinish).symm⟩
    · have hmark := Option.ite_none_right_eq_some.1 hstep
      cases hmark.2
      exact .inr ⟨rest, congrArg (· :: rest) (Word.lexeme_eq_mark_iff.1 hmark.1), haccepts⟩
  · rintro (⟨rfl, rfl⟩ | ⟨rest, rfl, haccepts⟩)
    · exact .inl ⟨rfl, rfl⟩
    · exact .inr ⟨_, rest, _, rfl, rfl, haccepts⟩

/-- Between the pairs of a block stands another pair, or what follows the block. -/
theorem accepts_between {block : Block} :
    Reading.Accepts ⟨bounds, constraints, .pairs block⟩ words contents ↔
      Reading.Accepts ⟨bounds, block.constraint :: constraints, .constraints⟩ words contents ∨
        ∃ w w' a b rest, words = w :: .mark .comma :: w' :: rest ∧ w.IsInteger a ∧ w'.IsInteger b ∧
          Reading.Accepts ⟨bounds, constraints,
            .pairs { block with pairs := (a, b) :: block.pairs }⟩ rest contents := by
  have hrest (a : Value) (words : List Word) :
      Reading.Accepts ⟨bounds, constraints, .pairComma block a⟩ words contents ↔ _ :=
    accepts_restOfPair (fun _ => rfl) (fun _ => rfl) rfl rfl
  rw [accepts_iff, accepts_constraints]
  constructor
  · rintro (⟨rfl, hfinish⟩ | ⟨w, rest, r', rfl, hstep, haccepts⟩)
    · exact .inl (.inl ⟨rfl, (Option.some.inj hfinish).symm⟩)
    · unfold step at hstep
      dsimp only at hstep
      split at hstep
      · next hmark =>
        cases hstep
        exact .inl (.inr ⟨rest, congrArg (· :: rest) (Word.lexeme_eq_mark_iff.1 hmark), haccepts⟩)
      · obtain ⟨a, ha, rfl⟩ := Option.map_eq_some_iff.1 hstep
        obtain ⟨w', b, rest, rfl, hb, haccepts⟩ := (hrest a _).1 haccepts
        exact .inr ⟨w, w', a, b, rest, rfl, Word.integer?_lexeme_iff.1 ha, hb, haccepts⟩
  · rintro ((⟨rfl, rfl⟩ | ⟨rest, rfl, haccepts⟩) | ⟨w, w', a, b, rest, rfl, ha, hb, haccepts⟩)
    · exact .inl ⟨rfl, rfl⟩
    · exact .inr ⟨_, rest, _, rfl, rfl, haccepts⟩
    · refine .inr ⟨w, _, _, rfl, ?_, (hrest a _).2 ⟨w', b, rest, rfl, hb, haccepts⟩⟩
      -- an integer is not the mark that starts the next block
      have hmark : w.lexeme ≠ Mark.constraint.lexeme := by
        obtain ⟨negative, n, rfl, -⟩ := ha
        simp [Word.lexeme, Mark.lexeme]
      show (if w.lexeme = Mark.constraint.lexeme then _ else (integer? w.lexeme).map _) = _
      rw [if_neg hmark, Word.integer?_lexeme_iff.2 ha]
      rfl

/-- **Pairs.** The block lists those it has in reverse. -/
theorem exists_pairs_of_accepts {block : Block} {words : List Word}
    (h : Reading.Accepts ⟨bounds, constraints, .pairs block⟩ words contents) :
    ∃ front rest pairs, words = front ++ rest ∧ Pairs front pairs ∧
      Reading.Accepts ⟨bounds,
        { block with pairs := pairs.reverse ++ block.pairs }.constraint :: constraints,
        .constraints⟩ rest contents := by
  rcases accepts_between.1 h with h | ⟨w, w', a, b, rest, hwords, ha, hb, h⟩
  · exact ⟨[], words, [], rfl, .nil, h⟩
  · have hshorter : rest.length < words.length := by
      rw [hwords]
      simp only [List.length_cons]
      omega
    obtain ⟨front, rest, pairs, rfl, hpairs, h⟩ := exists_pairs_of_accepts h
    refine ⟨w :: .mark .comma :: w' :: front, rest, (a, b) :: pairs, hwords, ?_, ?_⟩
    · exact .cons ha hb hpairs
    · rw [List.reverse_cons, List.append_assoc]
      exact h
termination_by words.length

/-- By induction on the pairs: the pairs of a block are taken in, the last one in front. -/
theorem accepts_of_pairs {block : Block} {front rest : List Word} {pairs : List (Value × Value)}
    (hpairs : Pairs front pairs)
    (h : Reading.Accepts ⟨bounds,
      { block with pairs := pairs.reverse ++ block.pairs }.constraint :: constraints,
      .constraints⟩ rest contents) :
    Reading.Accepts ⟨bounds, constraints, .pairs block⟩ (front ++ rest) contents := by
  induction hpairs generalizing block with
  | nil => exact accepts_between.2 (.inl h)
  | cons ha hb _ ih =>
    refine accepts_between.2 (.inr ⟨_, _, _, _, _, rfl, ha, hb, ih ?_⟩)
    rw [List.reverse_cons, List.append_assoc] at h
    exact h

/-- The constraint of a block allows its pairs, each where it came first. -/
theorem tuples_constraint (i j : Nat) (pairs : List (Value × Value)) :
    (Block.constraint ⟨i, j, pairs.reverse⟩).tuples = pairs.eraseDups := by
  show Grouping.distinct SupportTable.comparePairs pairs.reverse.reverse = pairs.eraseDups
  rw [List.reverse_reverse, Grouping.distinct_eq_eraseDups]

/-- **Blocks**, to the end of the file. -/
theorem exists_blocks_of_accepts {constraints : List Constraint} {words : List Word}
    (h : Reading.Accepts ⟨bounds, constraints, .constraints⟩ words contents) :
    ∃ found, Blocks words found ∧ contents = (bounds.reverse, constraints.reverse ++ found) := by
  rcases accepts_constraints.1 h with ⟨rfl, rfl⟩ | ⟨rest, hwords, h⟩
  · exact ⟨[], .nil, by rw [List.append_nil]⟩
  · obtain ⟨w, w', i, j, rest, rfl, hi, hj, h⟩ := accepts_openParen.1 h
    obtain ⟨front, rest, pairs, rfl, hpairs, h⟩ := exists_pairs_of_accepts h
    have hshorter : rest.length < words.length := by
      rw [hwords]
      simp only [List.length_cons, List.length_append]
      omega
    rw [List.append_nil] at h
    obtain ⟨found, hfound, rfl⟩ := exists_blocks_of_accepts h
    refine ⟨Block.constraint ⟨i, j, pairs.reverse⟩ :: found, ?_, ?_⟩
    · rw [hwords]
      exact .cons hi hj hpairs (tuples_constraint i j pairs) hfound
    · rw [List.reverse_cons, List.append_assoc]
      rfl
termination_by words.length

/-- By induction on the blocks: a file of such blocks is accepted. -/
theorem accepts_of_blocks {found : List Constraint} (h : Blocks words found) :
    Reading.Accepts ⟨bounds, constraints, .constraints⟩ words
      (bounds.reverse, constraints.reverse ++ found) := by
  induction h generalizing constraints with
  | nil => exact accepts_constraints.2 (.inl ⟨rfl, by rw [List.append_nil]⟩)
  | @cons w w' c front rest pairs found hi hj hpairs htuples _ ih =>
    -- the block makes the constraint that has these pairs
    have hblock : Block.constraint ⟨c.first, c.second, pairs.reverse⟩ = c := by
      rw [← ofTuples_tuples (Block.constraint ⟨c.first, c.second, pairs.reverse⟩),
        tuples_constraint, ← htuples]
      exact ofTuples_tuples c
    have hrest : Reading.Accepts ⟨bounds, c :: constraints, .constraints⟩ rest
        (bounds.reverse, (c :: constraints).reverse ++ found) := ih
    rw [List.reverse_cons, List.append_assoc] at hrest
    refine accepts_constraints.2 (.inr ⟨_, rfl, accepts_openParen.2
      ⟨w, w', c.first, c.second, _, rfl, hi, hj, accepts_of_pairs hpairs ?_⟩⟩)
    rw [List.append_nil, hblock]
    exact hrest

/-! ## §6. Files. -/

/-- A reading from the start accepts the words of network files. -/
theorem accepts_start_iff :
    Reading.start.Accepts words (bounds, constraints) ↔ Describes words bounds constraints := by
  have hcount : Reading.start.Accepts words (bounds, constraints) ↔ ∃ w n rest, words = w :: rest ∧
      w.IsIndex n ∧ Reading.Accepts ⟨[], [], stageOfLeft n⟩ rest (bounds, constraints) :=
    accepts_number Word.index?_lexeme_iff rfl fun _ => rfl
  rw [hcount]
  constructor
  -- the count, then as many ranges, then blocks to the end
  · rintro ⟨w, n, rest, rfl, hn, h⟩
    obtain ⟨front, rest, ranges, rfl, rfl, hranges, h⟩ := accepts_ranges.1 h
    obtain ⟨found, hfound, heq⟩ := exists_blocks_of_accepts h
    rw [List.append_nil, List.reverse_reverse] at heq
    obtain ⟨rfl, rfl⟩ := Prod.mk.inj heq
    exact .file hn hranges hfound
  · rintro ⟨hn, hranges, hblocks⟩
    refine ⟨_, _, _, rfl, hn, accepts_ranges.2 ⟨_, _, bounds, rfl, rfl, hranges, ?_⟩⟩
    rw [List.append_nil]
    have h : Reading.Accepts ⟨bounds.reverse, [], .constraints⟩ _
      (bounds.reverse.reverse, [].reverse ++ constraints) := accepts_of_blocks hblocks
    rw [List.reverse_reverse] at h
    exact h

/-- **The reader accepts the language of network files**, and what it reads is what the file
lists. -/
theorem contents?_eq_ok_iff (text : List Char) (bounds : List Bounds)
    (constraints : List Constraint) :
    contents? text = .ok (bounds, constraints) ↔
      ∃ words, Spells text words [] ∧ Describes words bounds constraints := by
  have hcontents : contents? text = .ok (bounds, constraints) ↔
      readFrom Reading.start text = .ok (bounds, constraints) := by
    unfold contents?
    split
    · next found heq => simp [heq]
    · next heq => simp [heq]
  rw [hcontents, readFrom_eq_ok_iff]
  exact exists_congr fun words => and_congr_right fun _ => accepts_start_iff

end NetworkText

end ConstraintNet

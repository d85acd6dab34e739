/-
  ConstraintNet.Proofs.WrittenText
  ────────────────────────────────
  **READING UNDOES WRITING.**

  A network is written line by line and read lexeme by lexeme.  The two meet
  in `Consumes r text r'`: whatever follows, a reading that has come to `r`
  takes `text` away and goes on from `r'`.  Such steps are put one before the
  other, from single characters to lines and lists of lines:

      `consumes_space`, `consumes_comment`   — what stands between lexemes
      `consumes_mark`, `consumes_number`     — one lexeme
      `consumes_pairLine`                    — a range, or an allowed pair
      `consumes_constraintLines`             — a constraint

  A number ends where its digits end, so it is consumed in front of a
  character that is no digit.

  Main result: `Network.ofText?_toText`, a file that was written under a title
  of one line reads back as the network that was written.
-/
import ConstraintNet.NetworkText.Reader
import ConstraintNet.NetworkText.Writer

namespace ConstraintNet

/-! ## §1. Lexemes that were written. -/

namespace Lexeme

/-- A space is skipped. -/
theorem skipSpace_space {c : Char} (h : isSpace c = true) (rest : List Char) :
    skipSpace (c :: rest) = skipSpace rest := by
  rw [skipSpace]
  · exact if_pos h
  · rintro tail rfl
    exact absurd h (by decide)

/-- A comment runs up to a place where a comment may end. -/
theorem skipComment?_append {text rest : List Char} (h : ∀ c ∈ text, c ≠ '\n' ∧ c ≠ '\r')
    (hrest : skipComment? rest = some rest) : skipComment? (text ++ rest) = some rest := by
  induction text with
  | nil => exact hrest
  | cons c text ih =>
    obtain ⟨hc, htext⟩ := List.forall_mem_cons.1 h
    rw [List.cons_append, skipComment?]
    · exact ih htext
    · exact hc.1
    · exact fun _ heq _ => hc.2 heq
    · exact hc.2

/-- Whether a text stays on its line can be checked character by character. -/
theorem oneLine_of_all {text : List Char} (h : text.all (fun c => c ≠ '\n' && c ≠ '\r') = true) :
    ∀ c ∈ text, c ≠ '\n' ∧ c ≠ '\r' := by
  intro c hc
  have hchecked := List.all_eq_true.1 h c hc
  rw [Bool.and_eq_true] at hchecked
  exact ⟨of_decide_eq_true hchecked.1, of_decide_eq_true hchecked.2⟩

/-- A comment is skipped with its line. -/
theorem skipSpace_comment {text rest : List Char} (h : ∀ c ∈ text, c ≠ '\n' ∧ c ≠ '\r')
    (hrest : skipComment? rest = some rest) :
    skipSpace ('/' :: '/' :: (text ++ rest)) = skipSpace rest := by
  rw [skipSpace]
  split
  next after hafter =>
    rw [skipComment?_append h hrest] at hafter
    rw [← Option.some.inj hafter]
  next hnone =>
    rw [skipComment?_append h hrest] at hnone
    cases hnone

/-- In front of anything else there is nothing to skip. -/
theorem skipSpace_of_not_space {c : Char} (h : isSpace c = false) (hslash : c ≠ '/')
    (rest : List Char) : skipSpace (c :: rest) = c :: rest := by
  rw [skipSpace]
  · exact if_neg (Bool.eq_false_iff.1 h)
  · exact fun _ heq _ => hslash heq

theorem next?_nil : next? [] = none := by
  unfold next?
  rw [skipSpace]

/-- Nothing is skipped before a lexeme. -/
theorem next?_cons {c : Char} (h : isSpace c = false) (hslash : c ≠ '/') (rest : List Char) :
    next? (c :: rest) = some ((read c rest).1, c :: rest, (read c rest).2) := by
  unfold next?
  rw [skipSpace_of_not_space h hslash]

/-- A number ends where its digits end. -/
theorem readNumber_digits (negative : Bool) (digit : Char) {digits rest : List Char}
    (hdigits : ∀ d ∈ digits, d.isDigit = true) (hrest : ∀ c ∈ rest.head?, c.isDigit = false) :
    readNumber negative digit (digits ++ rest) =
      (.number negative (min (Nat.ofDigitChars 10 (digit :: digits) 0) magnitudeLimit), rest) := by
  have hstop : rest.takeWhile Char.isDigit = [] ∧ rest.dropWhile Char.isDigit = rest := by
    cases rest with
    | nil => exact ⟨rfl, rfl⟩
    | cons c rest =>
      have hc : ¬ c.isDigit = true := by simp [hrest c rfl]
      exact ⟨List.takeWhile_cons_of_neg hc, List.dropWhile_cons_of_neg hc⟩
  unfold readNumber
  rw [List.takeWhile_append_of_pos hdigits, List.dropWhile_append_of_pos hdigits, hstop.1, hstop.2,
    List.append_nil, magnitudeOf_eq]

/-- The digits of a number are read to their end. -/
theorem readNumber_append (negative : Bool) {digit : Char} {digits : List Char} {n : Nat}
    (hdigits : Nat.toDigits 10 n = digit :: digits) (hn : n ≤ magnitudeLimit) {c : Char}
    (hc : c.isDigit = false) (rest : List Char) :
    readNumber negative digit (digits ++ c :: rest) = (.number negative n, c :: rest) := by
  have hall : ∀ d ∈ digits, d.isDigit = true := by
    intro d hd
    exact Nat.isDigit_of_mem_toDigits (by decide) (by decide)
      (hdigits ▸ List.mem_cons_of_mem digit hd)
  have hstop : ∀ d ∈ (c :: rest).head?, d.isDigit = false := by
    rintro d ⟨⟩
    exact hc
  rw [readNumber_digits negative digit hall hstop, ← hdigits, Nat.ofDigitChars_ten_toDigits,
    Nat.min_eq_left hn]

/-- A digit begins neither a space nor a comment nor a negative number. -/
theorem not_space_of_isDigit {c : Char} (h : c.isDigit = true) :
    isSpace c = false ∧ c ≠ '/' ∧ c ≠ '-' := by
  refine ⟨?_, ?_, ?_⟩
  · rw [← Bool.not_eq_true]
    intro hspace
    unfold isSpace at hspace
    simp only [Bool.or_eq_true, decide_eq_true_eq] at hspace
    rcases hspace with ((rfl | rfl) | rfl) | rfl
    · exact absurd h (by decide)
    · exact absurd h (by decide)
    · exact absurd h (by decide)
    · exact absurd h (by decide)
  · rintro rfl
    exact absurd h (by decide)
  · rintro rfl
    exact absurd h (by decide)

/-- An integer that was written is the next lexeme. -/
theorem next?_decimal {i : Int} (hi : i.natAbs ≤ magnitudeLimit) {c : Char}
    (hc : c.isDigit = false) (rest : List Char) :
    next? (NetworkText.decimal i ++ c :: rest) =
      some (.number (decide (i < 0)) i.natAbs, NetworkText.decimal i ++ c :: rest, c :: rest) := by
  obtain ⟨digit, digits, hdigits⟩ := List.exists_cons_of_ne_nil
    (Nat.toDigits_ne_nil (n := i.natAbs) (b := 10))
  have hdigit : digit.isDigit = true :=
    Nat.isDigit_of_mem_toDigits (by decide) (by decide) (hdigits ▸ List.mem_cons_self)
  unfold NetworkText.decimal
  rw [hdigits]
  by_cases hneg : i < 0
  · rw [if_pos hneg, decide_eq_true hneg, List.cons_append, List.cons_append,
      next?_cons (by decide) (by decide)]
    have hread : read '-' (digit :: (digits ++ c :: rest)) =
        readNumber true digit (digits ++ c :: rest) := if_pos hdigit
    rw [hread, readNumber_append true hdigits hi hc]
  · obtain ⟨hspace, hslash, _⟩ := not_space_of_isDigit hdigit
    rw [if_neg hneg, decide_eq_false hneg, List.cons_append, next?_cons hspace hslash]
    have hread : read digit (digits ++ c :: rest) =
        readNumber false digit (digits ++ c :: rest) := if_pos hdigit
    rw [hread, readNumber_append false hdigits hi hc]

end Lexeme

namespace NetworkText

/-! ## §2. What a reading consumes. -/

variable {r r' r'' : Reading} {text text' : List Char}

/-- A reading goes on after a lexeme that its stage admits. -/
theorem readFrom_of_next? {start after : List Char} {lexeme : Lexeme}
    (hnext : Lexeme.next? text = some (lexeme, start, after)) (hstep : step r lexeme = some r') :
    readFrom r text = readFrom r' after := by
  rw [readFrom]
  split
  next hnone =>
    rw [hnext] at hnone
    cases hnone
  next lexeme' start' after' hsome =>
    rw [hnext] at hsome
    cases hsome
    rw [hstep]

/-- A reading stops at a lexeme that its stage does not admit, and says what it wanted there. -/
theorem readFrom_of_fault {start after : List Char} {lexeme : Lexeme}
    (hnext : Lexeme.next? text = some (lexeme, start, after)) (hstep : step r lexeme = none) :
    readFrom r text = .error (r.stage, offence r.stage lexeme start) := by
  rw [readFrom]
  split
  next hnone =>
    rw [hnext] at hnone
    cases hnone
  next lexeme' start' after' hsome =>
    rw [hnext] at hsome
    cases hsome
    rw [hstep]

/-- At the end of the text a reading answers with the contents, if it may stop. -/
theorem readFrom_of_end (hnext : Lexeme.next? text = none) :
    readFrom r text =
      match r.finish? with
      | some contents => .ok contents
      | none => .error (r.stage, []) := by
  rw [readFrom]
  split
  next => rfl
  next lexeme start after hsome =>
    rw [hnext] at hsome
    cases hsome

/-- What is skipped before the next lexeme does not matter to a reading. -/
theorem readFrom_congr (h : Lexeme.skipSpace text = Lexeme.skipSpace text') :
    readFrom r text = readFrom r text' := by
  have hnext : Lexeme.next? text = Lexeme.next? text' := by
    unfold Lexeme.next?
    rw [h]
  cases hread : Lexeme.next? text' with
  | none => rw [readFrom_of_end hread, readFrom_of_end (hnext.trans hread)]
  | some found =>
    obtain ⟨lexeme, start, after⟩ := found
    cases hstep : step r lexeme with
    | none => rw [readFrom_of_fault hread hstep, readFrom_of_fault (hnext.trans hread) hstep]
    | some r' => rw [readFrom_of_next? hread hstep, readFrom_of_next? (hnext.trans hread) hstep]

/-- A reading that may stop answers with its contents. -/
theorem readFrom_nil {contents : List Bounds × List Constraint}
    (h : r.finish? = some contents) : readFrom r [] = .ok contents := by
  rw [readFrom_of_end Lexeme.next?_nil, h]

/-- Whatever follows, a reading that has come to `r` takes `text` away and goes on from `r'`. -/
def Consumes (r : Reading) (text : List Char) (r' : Reading) : Prop :=
  ∀ rest, readFrom r (text ++ rest) = readFrom r' rest

/-- No text, no step. -/
theorem consumes_nil (r : Reading) : Consumes r [] r := fun _ => rfl

/-- Two texts are consumed one after the other. -/
theorem Consumes.append (h : Consumes r text r') (h' : Consumes r' text' r'') :
    Consumes r (text ++ text') r'' := by
  intro rest
  rw [List.append_assoc, h, h']

/-- A space is consumed by the reading that follows it. -/
theorem consumes_space {c : Char} (hc : Lexeme.isSpace c = true) (h : Consumes r text r') :
    Consumes r (c :: text) r' := by
  intro rest
  rw [← h rest]
  exact readFrom_congr (Lexeme.skipSpace_space hc (text ++ rest))

/-- A comment is consumed by the reading that follows it, in whichever line. -/
theorem consumes_comment {comment : List Char} (hcomment : ∀ c ∈ comment, c ≠ '\n' ∧ c ≠ '\r')
    (h : Consumes r text r') : Consumes r ('/' :: '/' :: (comment ++ '\n' :: text)) r' := by
  intro rest
  rw [← h rest, List.cons_append, List.cons_append, List.append_assoc]
  have hskip : Lexeme.skipSpace ('/' :: '/' :: (comment ++ '\n' :: (text ++ rest))) =
      Lexeme.skipSpace (text ++ rest) := by
    rw [Lexeme.skipSpace_comment hcomment rfl, Lexeme.skipSpace_space (by decide)]
  exact readFrom_congr hskip

/-- A lexeme of one character. -/
theorem consumes_mark {c : Char} {lexeme : Lexeme} (hspace : Lexeme.isSpace c = false)
    (hslash : c ≠ '/') (hread : ∀ rest, Lexeme.read c rest = (lexeme, rest))
    (hstep : step r lexeme = some r') (h : Consumes r' text r'') :
    Consumes r (c :: text) r'' := by
  intro rest
  rw [← h rest]
  have hnext : Lexeme.next? (c :: (text ++ rest)) =
      some (lexeme, c :: (text ++ rest), text ++ rest) := by
    rw [Lexeme.next?_cons hspace hslash, hread]
  exact readFrom_of_next? hnext hstep

/-- A number is consumed up to its last digit, so that what follows may not be another one. -/
theorem consumes_number {i : Int} (hi : i.natAbs ≤ Lexeme.magnitudeLimit) {c : Char}
    (hc : c.isDigit = false) (hstep : step r (.number (decide (i < 0)) i.natAbs) = some r')
    (h : Consumes r' (c :: text) r'') : Consumes r (decimal i ++ c :: text) r'' := by
  intro rest
  rw [← h rest, List.append_assoc]
  exact readFrom_of_next? (Lexeme.next?_decimal hi hc (text ++ rest)) hstep

/-! ## §3. Values, positions and marks. -/

/-- No value is so large that its digits are cut off. -/
theorem natAbs_le_magnitudeLimit (v : Value) : v.toInt.natAbs ≤ Lexeme.magnitudeLimit := by
  have hbounds := Value.toInt_bounds v
  have hlimit : Lexeme.magnitudeLimit = 18446744073709551616 := rfl
  omega

/-- What is written for a value is read as this value. -/
theorem integer?_number (v : Value) :
    integer? (.number (decide (v.toInt < 0)) v.toInt.natAbs) = some v := by
  have hinteger : (if decide (v.toInt < 0) = true then -(v.toInt.natAbs : Int)
      else (v.toInt.natAbs : Int)) = v.toInt := by
    by_cases hneg : v.toInt < 0
    · rw [if_pos (decide_eq_true hneg)]
      omega
    · rw [if_neg (by simpa using hneg)]
      omega
  show Value.ofInt? (if decide (v.toInt < 0) = true then -(v.toInt.natAbs : Int)
    else (v.toInt.natAbs : Int)) = some v
  rw [hinteger]
  exact Value.ofInt?_toInt v

/-- A value is consumed by a stage that admits its number. -/
theorem consumes_value {v : Value} {c : Char} (hc : c.isDigit = false)
    (hstep : ∀ lexeme, integer? lexeme = some v → step r lexeme = some r')
    (h : Consumes r' (c :: text) r'') : Consumes r (decimal v.toInt ++ c :: text) r'' :=
  consumes_number (natAbs_le_magnitudeLimit v) hc (hstep _ (integer?_number v)) h

/-- A number without a sign is written in its digits. -/
theorem decimal_natCast (n : Nat) : decimal (n : Int) = Nat.toDigits 10 n := by
  unfold decimal
  rw [if_neg (by omega), Int.natAbs_natCast]

/-- So is a position, which has 64 bits. -/
theorem consumes_position {n : Nat} (hn : n < 1 <<< 64) {c : Char} (hc : c.isDigit = false)
    (hstep : ∀ lexeme, index? lexeme = some n → step r lexeme = some r')
    (h : Consumes r' (c :: text) r'') : Consumes r (Nat.toDigits 10 n ++ c :: text) r'' := by
  rw [← decimal_natCast]
  have hlimit : (n : Int).natAbs ≤ Lexeme.magnitudeLimit := by
    rw [Int.natAbs_natCast]
    exact Nat.le_of_lt hn
  refine consumes_number hlimit hc (hstep _ ?_) h
  rw [decide_eq_false (by omega), Int.natAbs_natCast]
  exact if_pos hn

/-- A comma is consumed where one is wanted. -/
theorem consumes_comma (hstep : step r .comma = some r') (h : Consumes r' text r'') :
    Consumes r (',' :: text) r'' :=
  consumes_mark (by decide) (by decide) (fun _ => rfl) hstep h

/-! ## §4. Lines. -/

/-- A line with two values: the first leads to a stage that wants a comma, and this to one that
wants the second. -/
theorem consumes_pairLine {r₁ r₂ : Reading} {a b : Value}
    (hfirst : ∀ lexeme, integer? lexeme = some a → step r lexeme = some r₁)
    (hcomma : step r₁ .comma = some r₂)
    (hsecond : ∀ lexeme, integer? lexeme = some b → step r₂ lexeme = some r') :
    Consumes r (pairLine a b) r' := by
  have hline : pairLine a b = decimal a.toInt ++ ',' :: ' ' :: (decimal b.toInt ++ ['\n']) := by
    show decimal a.toInt ++ [',', ' '] ++ decimal b.toInt ++ ['\n'] = _
    simp
  rw [hline]
  refine consumes_value (by decide) hfirst (consumes_comma hcomma ?_)
  refine consumes_space (by decide) (consumes_value (by decide) hsecond ?_)
  exact consumes_space (by decide) (consumes_nil r')

/-- The lines with the ranges of all variables that are left. -/
theorem consumes_boundsLines (bounds listed : List Bounds) (constraints : List Constraint) :
    Consumes ⟨listed, constraints, stageOfLeft bounds.length⟩
      (bounds.flatMap fun b => pairLine b.lower b.upper)
      ⟨bounds.reverse ++ listed, constraints, .constraints⟩ := by
  -- the stage counts the ranges that are left, and the reading lists those it has in reverse
  induction bounds generalizing listed with
  | nil => exact consumes_nil _
  | cons b rest ih =>
    have hfirst : ∀ lexeme, integer? lexeme = some b.lower →
        step ⟨listed, constraints, .lower rest.length⟩ lexeme =
          some ⟨listed, constraints, .boundsComma rest.length b.lower⟩ :=
      fun _ hlexeme => congrArg (Option.map _) hlexeme
    have hsecond : ∀ lexeme, integer? lexeme = some b.upper →
        step ⟨listed, constraints, .upper rest.length b.lower⟩ lexeme =
          some ⟨b :: listed, constraints, stageOfLeft rest.length⟩ :=
      fun _ hlexeme => congrArg (Option.map _) hlexeme
    rw [List.flatMap_cons, List.reverse_cons, List.append_assoc]
    exact (consumes_pairLine hfirst rfl hsecond).append (ih (b :: listed))

/-- The lines with the pairs of a constraint. -/
theorem consumes_pairLines (bounds : List Bounds) (constraints : List Constraint) (block : Block)
    (pairs : List (Value × Value)) :
    Consumes ⟨bounds, constraints, .pairs block⟩ (pairs.flatMap fun (a, b) => pairLine a b)
      ⟨bounds, constraints, .pairs { block with pairs := pairs.reverse ++ block.pairs }⟩ := by
  induction pairs generalizing block with
  | nil => exact consumes_nil _
  | cons pair rest ih =>
    obtain ⟨a, b⟩ := pair
    have hfirst : ∀ lexeme, integer? lexeme = some a →
        step ⟨bounds, constraints, .pairs block⟩ lexeme =
          some ⟨bounds, constraints, .pairComma block a⟩ := by
      intro lexeme hlexeme
      -- an integer is not the mark that starts the next constraint
      have hmark : lexeme ≠ .constraintMark := by
        rintro rfl
        cases hlexeme
      exact (if_neg hmark).trans (congrArg (Option.map _) hlexeme)
    have hsecond : ∀ lexeme, integer? lexeme = some b →
        step ⟨bounds, constraints, .pairSecond block a⟩ lexeme =
          some ⟨bounds, constraints, .pairs { block with pairs := (a, b) :: block.pairs }⟩ :=
      fun _ hlexeme => congrArg (Option.map _) hlexeme
    rw [List.flatMap_cons, List.reverse_cons, List.append_assoc]
    exact (consumes_pairLine hfirst rfl hsecond).append
      (ih { block with pairs := (a, b) :: block.pairs })

/-! ## §5. Constraints. -/

/-- A reading that could end here may go on with a constraint. -/
theorem step_constraintMark {bounds : List Bounds} {constraints : List Constraint}
    (h : r.finish? = some (bounds, constraints)) :
    step r .constraintMark = some ⟨bounds.reverse, constraints.reverse, .openParen⟩ := by
  obtain ⟨listed, finished, stage⟩ := r
  -- a reading may end before the first constraint and between the pairs of any
  unfold Reading.finish? at h
  split at h
  next hstage =>
    obtain ⟨rfl, rfl⟩ := Prod.mk.inj (Option.some.inj h)
    obtain rfl : stage = .constraints := hstage
    simp [step]
  next block hstage =>
    obtain ⟨rfl, rfl⟩ := Prod.mk.inj (Option.some.inj h)
    obtain rfl : stage = .pairs block := hstage
    simp [step]
  next => cases h

/-- A constraint is the one that its variables and its list of pairs make. -/
theorem ofTuples_tuples (c : Constraint) : Constraint.ofTuples c.first c.second c.tuples = c := by
  obtain ⟨first, second, table, pairs, rfl⟩ := c
  unfold Constraint.ofTuples Constraint.tuples
  simp only [SupportTable.ofList_tuples]

/-- **The lines of a constraint** add it to what has been listed. -/
theorem consumes_constraintLines {bounds : List Bounds} {constraints : List Constraint}
    (h : r.finish? = some (bounds, constraints)) {c : Constraint} (hfirst : c.first < 1 <<< 64)
    (hsecond : c.second < 1 <<< 64) :
    ∃ r', Consumes r (constraintLines c) r' ∧
      r'.finish? = some (bounds, constraints ++ [c]) := by
  have hlines : constraintLines c =
      'c' :: '(' :: (Nat.toDigits 10 c.first ++ ',' :: ' ' :: (Nat.toDigits 10 c.second ++
        ')' :: '\n' :: ((c.tuples.flatMap fun (a, b) => pairLine a b) ++ ['\n']))) := by
    show ['c', '('] ++ Nat.toDigits 10 c.first ++ [',', ' '] ++ Nat.toDigits 10 c.second ++
      [')', '\n'] ++ (c.tuples.flatMap fun (a, b) => pairLine a b) ++ ['\n'] = _
    simp
  have hopen : ∀ lexeme, index? lexeme = some c.first →
      step ⟨bounds.reverse, constraints.reverse, .first⟩ lexeme =
        some ⟨bounds.reverse, constraints.reverse, .indexComma c.first⟩ :=
    fun _ hlexeme => congrArg (Option.map _) hlexeme
  have hnext : ∀ lexeme, index? lexeme = some c.second →
      step ⟨bounds.reverse, constraints.reverse, .second c.first⟩ lexeme =
        some ⟨bounds.reverse, constraints.reverse, .closeParen c.first c.second⟩ :=
    fun _ hlexeme => congrArg (Option.map _) hlexeme
  -- the last block stays open until the next one starts or the text ends
  let block : Block := ⟨c.first, c.second, c.tuples.reverse⟩
  refine ⟨⟨bounds.reverse, constraints.reverse, .pairs block⟩, ?_, ?_⟩
  · rw [hlines]
    refine consumes_mark (by decide) (by decide) (fun _ => rfl) (step_constraintMark h) ?_
    refine consumes_mark (by decide) (by decide) (fun _ => rfl) rfl ?_
    refine consumes_position hfirst (by decide) hopen ?_
    refine consumes_comma rfl (consumes_space (by decide) ?_)
    refine consumes_position hsecond (by decide) hnext ?_
    refine consumes_mark (by decide) (by decide) (fun _ => rfl) rfl (consumes_space (by decide) ?_)
    have hpairs := consumes_pairLines bounds.reverse constraints.reverse
      ⟨c.first, c.second, []⟩ c.tuples
    rw [List.append_nil] at hpairs
    exact hpairs.append (consumes_space (by decide) (consumes_nil _))
  · have hblock : block.constraint = c := by
      show Constraint.ofTuples c.first c.second c.tuples.reverse.reverse = c
      rw [List.reverse_reverse, ofTuples_tuples]
    show some (bounds.reverse.reverse, (block.constraint :: constraints.reverse).reverse) = _
    rw [hblock, List.reverse_reverse, List.reverse_cons, List.reverse_reverse]

/-- By induction on the constraints: the lines of each are consumed where a constraint may begin,
and leave the reading where the next one may. -/
theorem consumes_allConstraintLines {bounds : List Bounds} :
    ∀ (cs constraints : List Constraint) (r : Reading), r.finish? = some (bounds, constraints) →
      (∀ c ∈ cs, c.first < 1 <<< 64 ∧ c.second < 1 <<< 64) →
      ∃ r', Consumes r (cs.flatMap constraintLines) r' ∧
        r'.finish? = some (bounds, constraints ++ cs)
  | [], constraints, r, h, _ => ⟨r, consumes_nil r, by rw [List.append_nil]; exact h⟩
  | c :: cs, constraints, r, h, hsmall => by
      obtain ⟨hc, hcs⟩ := List.forall_mem_cons.1 hsmall
      obtain ⟨r₁, hconsumes, hfinish⟩ := consumes_constraintLines h hc.1 hc.2
      obtain ⟨r₂, hconsumes', hfinish'⟩ :=
        consumes_allConstraintLines cs (constraints ++ [c]) r₁ hfinish hcs
      refine ⟨r₂, ?_, ?_⟩
      · rw [List.flatMap_cons]
        exact hconsumes.append hconsumes'
      · rw [hfinish', List.append_assoc, List.singleton_append]

/-! ## §6. Files. -/

/-- A file that was written lists the ranges and the constraints of its network. -/
theorem contents?_write {net : Network} (hsize : net.size < 1 <<< 64) {title : List Char}
    (htitle : ∀ c ∈ title, c ≠ '\n' ∧ c ≠ '\r') :
    contents? (write net title) = .ok (net.bounds.toList, net.constraints.toList) := by
  have hsmall : ∀ c ∈ net.constraints.toList, c.first < 1 <<< 64 ∧ c.second < 1 <<< 64 := by
    intro c hc
    obtain ⟨hfirst, hsecond, _⟩ := net.endpoints_known c hc
    exact ⟨Nat.lt_trans hfirst hsize, Nat.lt_trans hsecond hsize⟩
  have hlist : write net title =
      '/' :: '/' :: (title ++ '\n' :: '\n' ::
        '/' :: '/' :: (" Number of variables:".toList ++ '\n' :: (Nat.toDigits 10 net.size ++
          '\n' :: '\n' :: '/' :: '/' ::
            (" Domains of the variables: lower, upper (inclusive)".toList ++ '\n' ::
              ((net.bounds.toList.flatMap fun b => pairLine b.lower b.upper) ++ '\n' ::
                '/' :: '/' :: (" constraints (vars indexed from 0, allowed tuples):".toList ++
                  '\n' :: net.constraints.toList.flatMap constraintLines)))))) := by
    unfold write
    simp
  have hbounds := consumes_boundsLines net.bounds.toList [] []
  rw [List.append_nil] at hbounds
  obtain ⟨r, hconstraints, hfinish⟩ := consumes_allConstraintLines net.constraints.toList []
    ⟨net.bounds.toList.reverse, [], .constraints⟩ rfl hsmall
  -- The number of variables fixes how many bounds are still to come.
  have hcount : ∀ lexeme, index? lexeme = some net.size →
      step Reading.start lexeme = some ⟨[], [], stageOfLeft net.bounds.toList.length⟩ :=
    fun _ hlexeme => congrArg (Option.map _) hlexeme
  -- The reader goes through the text piece by piece: title, number of variables, bounds,
  -- constraints.
  have hread : Consumes Reading.start (write net title) r := by
    rw [hlist]
    refine consumes_comment htitle (consumes_space (by decide) ?_)
    refine consumes_comment (Lexeme.oneLine_of_all rfl) ?_
    refine consumes_position hsize (by decide) hcount ?_
    refine consumes_space (by decide) (consumes_space (by decide) ?_)
    refine consumes_comment (Lexeme.oneLine_of_all rfl) ?_
    refine hbounds.append (consumes_space (by decide) ?_)
    exact consumes_comment (Lexeme.oneLine_of_all rfl) hconstraints
  have hwhole : readFrom Reading.start (write net title) =
      .ok (net.bounds.toList, net.constraints.toList) := by
    have hnothing := hread []
    rw [List.append_nil, readFrom_nil hfinish, List.reverse_reverse, List.nil_append] at hnothing
    exact hnothing
  unfold contents?
  rw [hwhole]

end NetworkText

/-! ## §7. Networks. -/

/-- **Reading undoes writing.** A network whose variables can be counted in 64 bits, written under
a title of one line, reads back as the same network: with the same ranges, the same constraints in
the same order and direction, the same pairs in the same order, and therefore the same links. -/
theorem Network.ofText?_toText (net : Network) (hsize : net.size < 1 <<< 64) (title : String)
    (htitle : ∀ c ∈ title.toList, c ≠ '\n' ∧ c ≠ '\r') :
    Network.ofText? (net.toText title) = .ok net := by
  unfold ofText? toText
  rw [String.toList_ofList, NetworkText.contents?_write hsize htitle]
  dsimp only
  rw [net.build?_eq_ok]

/-- Three variables, one of them with all its values at the ends of the 32 bits; the first
constraint is stored against the row and gives its pairs in no order, the second allows none. -/
def corners : Network where
  bounds := #[⟨-1, 1⟩, ⟨-2147483648, 2147483647⟩, ⟨7, 7⟩]
  constraints := #[.ofTuples 1 0 [(2147483647, 1), (-2147483648, -1), (0, 0)], .ofTuples 0 2 []]
  links := linksOf 3
    [.ofTuples 1 0 [(2147483647, 1), (-2147483648, -1), (0, 0)], .ofTuples 0 2 []]
  bounds_nonempty := by decide
  endpoints_known := by simp [Constraint.ofTuples]
  links_eq := rfl

/-- A title may look like a constraint and like a comment. -/
theorem corners_read_back :
    (corners.size < 1 <<< 64 ∧ ∀ c ∈ "c(0, 1) // -3, c".toList, c ≠ '\n' ∧ c ≠ '\r') ∧
    Network.ofText? (corners.toText "c(0, 1) // -3, c") = .ok corners :=
  have htitle : ∀ c ∈ "c(0, 1) // -3, c".toList, c ≠ '\n' ∧ c ≠ '\r' :=
    Lexeme.oneLine_of_all rfl
  ⟨⟨by decide, htitle⟩, Network.ofText?_toText corners (by decide) _ htitle⟩

end ConstraintNet

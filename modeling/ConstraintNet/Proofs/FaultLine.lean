/-
  ConstraintNet.Proofs.FaultLine
  ──────────────────────────────
  **A TEXT IS REFUSED ON THE LINE OF ITS FIRST FAULT.**

  What the first fault of a text is can be said by the grammar alone.  The
  words before it may begin a network file (`Viable`), and with the word that
  stands there, if it is a word at all, they may not; or the text ends there
  and its words are not a whole file (`FaultAt`).  The reader looks ahead by
  one lexeme only and never returns, so that its stages have to know all of
  this:

      `completes`           — every reading can go on to the end of a file,
      `viable_iff`          — so words may begin one when no stage refuses them
      `exists_stuckAt`      — a reading that fails comes to a place where it is
                              stuck, which is a first fault,
      `readFrom_of_stuckAt` — and that is where it stops

  Main result: `faults_are_located`.
-/
import ConstraintNet.Proofs.AcceptedText

namespace ConstraintNet

namespace NetworkText

/-! ## §1. Faults. -/

/-- The words may begin a network file. -/
def Viable (words : List Word) : Prop :=
  ∃ more bounds constraints, Describes (words ++ more) bounds constraints

/-- The text begins neither with a space nor with a comment. -/
def Settled (text : List Char) : Prop := ∀ rest, Spells text [] rest → rest = text

/-- The text goes wrong at `start`: what stands before it are words that may begin a network file.
With the word that stands there, which takes all the digits that it can, they may not, or what
stands there is no word; and if the text ends there, more is required. -/
structure FaultAt (text before start : List Char) : Prop where
  text_eq : text = before ++ start
  settled : Settled start
  first : ∃ words, Spells text words start ∧ Viable words ∧
    (∀ w after, Spells start [w] after → ¬ Viable (words ++ [w])) ∧
    (start = [] → ∀ bounds constraints, ¬ Describes words bounds constraints)

/-! ## §2. Readings that go on to the end of a file. -/

variable {r r' : Reading} {text rest start : List Char} {w : Word} {words words' : List Word}

/-- Some words lead the reading to the end of a file. -/
def Reading.Completes (r : Reading) : Prop := ∃ words contents, r.Accepts words contents

/-- A reading completes when some word leads it to one that does. -/
theorem Reading.Completes.of_step (h : r'.Completes) (w : Word)
    (hstep : step r w.lexeme = some r') : r.Completes := by
  obtain ⟨words, contents, haccepts⟩ := h
  exact ⟨w :: words, contents, accepts_cons.2 ⟨r', hstep, haccepts⟩⟩

/-- A reading that may stop goes on to the end by no words. -/
theorem Reading.Completes.of_finish {contents : List Bounds × List Constraint}
    (h : r.finish? = some contents) : r.Completes :=
  ⟨[], contents, accepts_nil.2 h⟩

/-- The number zero, which may stand wherever a number is wanted. -/
def zeroWord : Word := .number false 0

section

variable {bounds : List Bounds} {constraints : List Constraint}

/-- After a whole pair the file may end. -/
theorem completes_pairs (block : Block) :
    Reading.Completes ⟨bounds, constraints, .pairs block⟩ := .of_finish rfl

/-- A first value of a pair is completed by a second one. -/
theorem completes_pairSecond (block : Block) (a : Value) :
    Reading.Completes ⟨bounds, constraints, .pairSecond block a⟩ :=
  (completes_pairs { block with pairs := (a, 0) :: block.pairs }).of_step zeroWord rfl

/-- A first variable is completed by a comma and a second one. -/
theorem completes_second (first : VariableId) :
    Reading.Completes ⟨bounds, constraints, .second first⟩ := by
  have hclose : Reading.Completes ⟨bounds, constraints, .closeParen first 0⟩ :=
    (completes_pairs ⟨first, 0, []⟩).of_step (.mark .closeParen) rfl
  exact hclose.of_step zeroWord rfl

/-- And the head of a constraint by both variables. -/
theorem completes_first : Reading.Completes ⟨bounds, constraints, .first⟩ :=
  ((completes_second 0).of_step (.mark .comma) rfl).of_step zeroWord rfl

/-- By induction on the number of ranges that are left: each of them can be given. -/
theorem completes_ranges (left : Nat) :
    Reading.Completes ⟨bounds, constraints, stageOfLeft left⟩ := by
  induction left generalizing bounds with
  | zero => exact .of_finish rfl
  | succ left ih =>
    have hleft : Reading.Completes ⟨⟨0, 0⟩ :: bounds, constraints, stageOfLeft left⟩ := ih
    have hupper : Reading.Completes ⟨bounds, constraints, .upper left 0⟩ :=
      hleft.of_step zeroWord rfl
    have hcomma : Reading.Completes ⟨bounds, constraints, .boundsComma left 0⟩ :=
      hupper.of_step (.mark .comma) rfl
    exact hcomma.of_step zeroWord rfl

/-- A lower bound is completed by an upper one, and then by the ranges that are left. -/
theorem completes_upper (left : Nat) (lower : Value) :
    Reading.Completes ⟨bounds, constraints, .upper left lower⟩ := by
  have hranges : Reading.Completes ⟨⟨lower, 0⟩ :: bounds, constraints, stageOfLeft left⟩ :=
    completes_ranges left
  exact hranges.of_step zeroWord rfl

end

/-- **Every reading can go on to the end of a file.** -/
theorem completes (r : Reading) : r.Completes := by
  obtain ⟨bounds, constraints, stage⟩ := r
  cases stage with
  | count => exact (completes_ranges 0).of_step zeroWord rfl
  | lower left => exact completes_ranges (left + 1)
  | boundsComma left lower => exact (completes_upper left lower).of_step (.mark .comma) rfl
  | upper left lower => exact completes_upper left lower
  | constraints => exact completes_ranges 0
  | openParen => exact completes_first.of_step (.mark .openParen) rfl
  | first => exact completes_first
  | indexComma first => exact (completes_second first).of_step (.mark .comma) rfl
  | second first => exact completes_second first
  | closeParen first second =>
    exact (completes_pairs ⟨first, second, []⟩).of_step (.mark .closeParen) rfl
  | pairs block => exact completes_pairs block
  | pairComma block a => exact (completes_pairSecond block a).of_step (.mark .comma) rfl
  | pairSecond block a => exact completes_pairSecond block a

/-- A reading goes through two lists of words one after the other. -/
theorem through?_append (r : Reading) (words words' : List Word) :
    r.through? (words ++ words') = (r.through? words).bind fun r' => r'.through? words' := by
  induction words generalizing r with
  | nil => rfl
  | cons w words ih =>
    show (step r w.lexeme).bind _ = ((step r w.lexeme).bind _).bind _
    cases step r w.lexeme with
    | none => rfl
    | some r' => exact ih r'

/-- **Words may begin a file** when the reader goes through them. -/
theorem viable_iff : Viable words ↔ ∃ r', Reading.start.through? words = some r' := by
  constructor
  · intro h
    obtain ⟨more, bounds, constraints, hdescribes⟩ := h
    obtain ⟨last, hthrough, _⟩ := accepts_start_iff.2 hdescribes
    rw [through?_append] at hthrough
    obtain ⟨r', hr', _⟩ := Option.bind_eq_some_iff.1 hthrough
    exact ⟨r', hr'⟩
  · intro h
    obtain ⟨r', hr'⟩ := h
    obtain ⟨more, ⟨bounds, constraints⟩, last, hmore, hfinish⟩ := completes r'
    refine ⟨more, bounds, constraints, accepts_start_iff.1 ⟨last, ?_, hfinish⟩⟩
    rw [through?_append, hr']
    exact hmore

/-- One word more. -/
theorem viable_concat_iff (h : Reading.start.through? words = some r) :
    Viable (words ++ [w]) ↔ ∃ r', step r w.lexeme = some r' := by
  have hstep : Reading.start.through? (words ++ [w]) = step r w.lexeme := by
    rw [through?_append, h]
    exact Option.bind_fun_some _
  rw [viable_iff, hstep]

/-- Words that lead to a reading describe what that reading has when it may stop. -/
theorem describes_iff (h : Reading.start.through? words = some r) {bounds : List Bounds}
    {constraints : List Constraint} :
    Describes words bounds constraints ↔ r.finish? = some (bounds, constraints) := by
  rw [← accepts_start_iff]
  constructor
  · intro haccepts
    obtain ⟨last, hlast, hfinish⟩ := haccepts
    obtain rfl := Option.some.inj (h.symm.trans hlast)
    exact hfinish
  · exact fun hfinish => ⟨r, h, hfinish⟩

/-! ## §3. What stands at a place of the text. -/

/-- What words spell stands in front of the rest. -/
theorem Spells.suffix (h : Spells text words rest) : ∃ before, text = before ++ rest := by
  induction h with
  | done rest => exact ⟨[], rfl⟩
  | @space c _ _ _ _ _ ih =>
    obtain ⟨before, rfl⟩ := ih
    exact ⟨c :: before, rfl⟩
  | @comment body _ _ _ _ _ _ ih =>
    obtain ⟨before, rfl⟩ := ih
    exact ⟨'/' :: '/' :: (body ++ before), by simp⟩
  | @number negative digits _ _ _ _ _ _ _ ih =>
    obtain ⟨before, rfl⟩ := ih
    exact ⟨signOf negative ++ (digits ++ before), by simp⟩
  | mark m _ ih =>
    obtain ⟨before, rfl⟩ := ih
    exact ⟨m.char :: before, rfl⟩

/-- There is nothing to skip in front of a word. -/
theorem Settled.skipSpace_eq (h : Settled text) : Lexeme.skipSpace text = text :=
  h _ (Lexeme.spells_skipSpace text)

/-- Nothing can be skipped where skipping has stopped. -/
theorem settled_of_skipSpace (h : Lexeme.skipSpace text = text) : Settled text := by
  intro rest hspells
  -- a space or a comment would have been skipped, and then less would be left
  cases hspells with
  | done => rfl
  | @space c text _ _ hspace _ =>
    have hlength := Lexeme.length_skipSpace_le text
    rw [← Lexeme.skipSpace_space (Lexeme.isSpace_iff.2 hspace), h, List.length_cons] at hlength
    omega
  | @comment body text _ _ hbody hend _ =>
    have hlength := Lexeme.length_skipSpace_le text
    rw [← Lexeme.skipSpace_comment hbody (Lexeme.skipComment?_of_endsLine hend), h] at hlength
    simp only [List.length_cons, List.length_append] at hlength
    omega

/-- Where spaces and comments were skipped, none are left. -/
theorem skipSpace_skipSpace (text : List Char) :
    Lexeme.skipSpace (Lexeme.skipSpace text) = Lexeme.skipSpace text := by
  fun_induction Lexeme.skipSpace text with
  | case1 rest after hafter ih => exact ih
  | case2 rest hnone =>
    rw [Lexeme.skipSpace]
    split
    next after hafter =>
      rw [hnone] at hafter
      cases hafter
    next => rfl
  | case3 c rest _ hspace ih => exact ih
  | case4 c rest hslashes hspace =>
    rw [Lexeme.skipSpace]
    · exact if_neg hspace
    · exact hslashes
  | case5 => rw [Lexeme.skipSpace]

/-- The text behind them begins with neither. -/
theorem settled_skipSpace (text : List Char) : Settled (Lexeme.skipSpace text) :=
  settled_of_skipSpace (skipSpace_skipSpace text)

/-- Where neither a space nor a comment begins, a lexeme does, if only an unknown one. -/
theorem exists_next?_of_settled {c : Char} (h : Settled (c :: rest)) :
    ∃ lexeme after, Lexeme.read c rest = (lexeme, after) ∧
      Lexeme.next? (c :: rest) = some (lexeme, c :: rest, after) := by
  refine ⟨(Lexeme.read c rest).1, (Lexeme.read c rest).2, rfl, ?_⟩
  unfold Lexeme.next?
  rw [h.skipSpace_eq]

/-- The next lexeme is found behind spaces and comments anyhow. -/
theorem next?_skipSpace (text : List Char) :
    Lexeme.next? (Lexeme.skipSpace text) = Lexeme.next? text := by
  unfold Lexeme.next?
  rw [skipSpace_skipSpace]

/-- A lexeme starts where skipping stops. -/
theorem start_of_next? {after : List Char} {lexeme : Lexeme}
    (h : Lexeme.next? text = some (lexeme, start, after)) :
    start = Lexeme.skipSpace text ∧ start ≠ [] := by
  unfold Lexeme.next? at h
  split at h
  next => cases h
  next c rest hskip =>
    simp only [Option.some.injEq, Prod.mk.injEq] at h
    obtain ⟨-, rfl, -⟩ := h
    exact ⟨hskip.symm, List.cons_ne_nil c rest⟩

/-- The word that stands at a place is the lexeme that is read there. -/
theorem next?_of_spells (hsettled : Settled start) {after : List Char}
    (h : Spells start [w] after) : ∃ rest, Lexeme.next? start = some (w.lexeme, start, rest) := by
  cases h with
  | @space c text _ _ hspace _ =>
    have heq := hsettled text (.space hspace (.done text))
    exact absurd heq.symm (List.cons_ne_self c text)
  | @comment body text _ _ hbody hend _ =>
    have heq := congrArg List.length (hsettled text (.comment hbody hend (.done text)))
    simp only [List.length_cons, List.length_append] at heq
    omega
  | @number negative digits text _ _ hne hdigits hlongest _ =>
    exact ⟨text, Lexeme.next?_digits negative hne hdigits hlongest⟩
  | @mark m text _ _ _ => exact ⟨text, Lexeme.next?_mark m text⟩

/-! ## §4. Where a reading stops. -/

/-- The reading admits nothing that can stand at `start`, nor that the text ends there. -/
structure Reading.StuckAt (r : Reading) (start : List Char) : Prop where
  refuses : ∀ w after, Spells start [w] after → step r w.lexeme = none
  unfinished : start = [] → r.finish? = none

/-- **To be stuck is to be at a first fault**: a reading refuses the words with which those before
it may not begin a file. -/
theorem stuckAt_iff (h : Reading.start.through? words = some r) :
    r.StuckAt start ↔ (∀ w after, Spells start [w] after → ¬ Viable (words ++ [w])) ∧
      (start = [] → ∀ bounds constraints, ¬ Describes words bounds constraints) := by
  have hword (w : Word) : ¬ Viable (words ++ [w]) ↔ step r w.lexeme = none := by
    rw [viable_concat_iff h, Option.eq_none_iff_forall_ne_some, not_exists]
  have hfile : (∀ bounds constraints, ¬ Describes words bounds constraints) ↔
      r.finish? = none := by
    simp only [describes_iff h, Option.eq_none_iff_forall_ne_some, Prod.forall, ne_eq]
  simp only [hword, hfile]
  exact ⟨fun hstuck => ⟨hstuck.refuses, hstuck.unfinished⟩, fun hstuck => ⟨hstuck.1, hstuck.2⟩⟩

/-- **A reading that fails** goes through the words up to a place where it is stuck. -/
theorem exists_stuckAt (h : ∀ contents, readFrom r text ≠ .ok contents) :
    ∃ words start r', Spells text words start ∧ Settled start ∧
      r.through? words = some r' ∧ r'.StuckAt start := by
  fun_induction readFrom r text with
  | case1 r text hend found hfinish => exact absurd rfl (h found)
  | case2 r text hend hfinish =>
    have hsettled : Settled [] := settled_of_skipSpace (by rw [Lexeme.skipSpace])
    refine ⟨[], [], r, Lexeme.spells_of_end hend, hsettled, rfl, ?_, fun _ => hfinish⟩
    intro w after hword
    obtain ⟨rest, hnext⟩ := next?_of_spells hsettled hword
    rw [Lexeme.next?_nil] at hnext
    cases hnext
  | case3 r text lexeme start after hnext r' hstep ih =>
    obtain ⟨words, last, r'', hspells, hsettled, hthrough, hstuck⟩ := ih h
    -- the lexeme was admitted, so that it is a word
    obtain ⟨hminus, hknown⟩ := known_of_step hstep
    obtain ⟨w, rfl, hword⟩ := Lexeme.exists_word_of_next? hnext hminus hknown
    refine ⟨w :: words, last, r'', hword.append hspells, hsettled, ?_, hstuck⟩
    exact Option.bind_eq_some_iff.2 ⟨r', hstep, hthrough⟩
  | case4 r text lexeme start after hnext hstep =>
    obtain ⟨rfl, hne⟩ := start_of_next? hnext
    have hsettled := settled_skipSpace text
    refine ⟨[], _, r, Lexeme.spells_skipSpace text, hsettled, rfl, ?_, fun hnil => absurd hnil hne⟩
    -- every word that stands there is the lexeme that was refused
    intro w after' hword
    obtain ⟨rest, hnext'⟩ := next?_of_spells hsettled hword
    rw [next?_skipSpace, hnext] at hnext'
    obtain rfl := (Prod.mk.inj (Option.some.inj hnext')).1
    exact hstep

/-- Only the sign of a number is read as one. -/
theorem eq_minus_of_read {c : Char} {after : List Char}
    (h : Lexeme.read c rest = (.minus, after)) : c = '-' := by
  by_cases hc : c = '-'
  · exact hc
  exfalso
  unfold Lexeme.read Lexeme.readNumber at h
  rw [if_neg hc] at h
  split at h
  · cases h
  split at h
  · cases h
  split at h
  · cases h
  split at h
  · cases h
  split at h
  · cases h
  · cases h

/-- **A reading that is stuck** fails, with a fault that is at most a minus sign further on. -/
theorem readFrom_of_stuckAt (hsettled : Settled start) (h : r.StuckAt start) :
    ∃ last, readFrom r start = .error (r.stage, last) ∧ last.count '\n' = start.count '\n' := by
  cases start with
  | nil =>
    refine ⟨[], ?_, rfl⟩
    rw [readFrom_of_end Lexeme.next?_nil, h.unfinished rfl]
  | cons c rest =>
    obtain ⟨lexeme, after, hread, hnext⟩ := exists_next?_of_settled hsettled
    -- a lexeme that is admitted is a word, and all words that stand there are refused
    have hstep : step r lexeme = none := by
      rw [Option.eq_none_iff_forall_ne_some]
      intro r' hstep
      obtain ⟨hminus, hknown⟩ := known_of_step hstep
      obtain ⟨w, rfl, hword⟩ := Lexeme.exists_word_of_read hread hminus hknown
      rw [h.refuses w after hword] at hstep
      cases hstep
    refine ⟨_, readFrom_of_fault hnext hstep, ?_⟩
    unfold offence
    split
    -- the minus sign that is passed over ends no line
    next hsign =>
      rw [hsign.1] at hread
      obtain rfl := eq_minus_of_read hread
      rfl
    next => rfl

/-! ## §5. The line of a fault. -/

/-- The words before a first fault lead to a reading that is stuck there. -/
theorem FaultAt.exists_stuckAt {before : List Char} (h : FaultAt text before start) :
    ∃ words r, Spells text words start ∧ Reading.start.through? words = some r ∧
      r.StuckAt start := by
  obtain ⟨words, hspells, hviable, hfirst⟩ := h.first
  obtain ⟨r, hthrough⟩ := viable_iff.1 hviable
  exact ⟨words, r, hspells, hthrough, (stuckAt_iff hthrough).2 hfirst⟩

/-- A text that is no file has a first fault. -/
theorem exists_faultAt (h : ∀ contents, readFrom Reading.start text ≠ .ok contents) :
    ∃ before start, FaultAt text before start := by
  obtain ⟨words, start, r, hspells, hsettled, hthrough, hstuck⟩ := exists_stuckAt h
  obtain ⟨before, htext⟩ := hspells.suffix
  exact ⟨before, start, htext, hsettled, words, hspells, viable_iff.2 ⟨r, hthrough⟩,
    (stuckAt_iff hthrough).1 hstuck⟩

/-- The line at which the reader stops is the line of the fault. -/
theorem contents?_of_faultAt {before : List Char} (h : FaultAt text before start) :
    ∃ expected found,
      contents? text = .error (.unexpected (before.count '\n' + 1) expected found) := by
  obtain ⟨words, r, hspells, hthrough, hstuck⟩ := h.exists_stuckAt
  obtain ⟨last, hread, hcount⟩ := readFrom_of_stuckAt h.settled hstuck
  have hline : lineOf text last = before.count '\n' + 1 := by
    unfold lineOf
    rw [hcount, h.text_eq, List.count_append, Nat.add_sub_cancel]
  refine ⟨r.stage.expected, Text.firstWord last, ?_⟩
  unfold contents?
  rw [readFrom_of_spells hspells hthrough, hread]
  show Except.error (ReadError.unexpected (lineOf text last) _ _) = _
  rw [hline]

/-- **A text is refused on the line of its first fault**: it is no network file just when it has a
fault, and then the line that is reported is that of the fault. -/
theorem faults_are_located (text : String) :
    ((∀ contents, contents? text.toList ≠ .ok contents) ↔
      ∃ before start, FaultAt text.toList before start) ∧
    ∀ before start, FaultAt text.toList before start → ∃ expected found,
      Network.ofText? text = .error (.unexpected (before.count '\n' + 1) expected found) := by
  refine ⟨⟨?_, ?_⟩, ?_⟩
  · intro hrefused
    apply exists_faultAt
    intro contents hread
    apply hrefused contents
    unfold contents?
    rw [hread]
  · rintro ⟨before, start, hfault⟩ contents haccepted
    obtain ⟨expected, found, hrefused⟩ := contents?_of_faultAt hfault
    rw [hrefused] at haccepted
    cases haccepted
  · intro before start hfault
    obtain ⟨expected, found, hrefused⟩ := contents?_of_faultAt hfault
    refine ⟨expected, found, ?_⟩
    unfold Network.ofText?
    rw [hrefused]

/-- The number `4` on the second line may be the lower bound of a variable, and then `5` may not
follow it. -/
theorem missing_comma_is_located :
    FaultAt "1\n4 5".toList "1\n4 ".toList ['5'] ∧ ∃ expected found,
      Network.ofText? "1\n4 5" = .error (.unexpected 2 expected found) := by
  have hfour : Spells (signOf false ++ (['4'] ++ [' ', '5'])) [.number false 4] ['5'] := by
    refine .number false (List.cons_ne_nil _ _) (List.forall_mem_singleton.2 rfl) ?_
      (.space (Or.inl rfl) (.done ['5']))
    rintro _ ⟨⟩
    rfl
  have hwords : Spells (signOf false ++ (['1'] ++ ['\n', '4', ' ', '5']))
      [.number false 1, .number false 4] ['5'] := by
    refine .number false (List.cons_ne_nil _ _) (List.forall_mem_singleton.2 rfl) ?_
      (.space (by decide) hfour)
    rintro _ ⟨⟩
    rfl
  have hthrough : Reading.start.through? [.number false 1, .number false 4] =
      some ⟨[], [], .boundsComma 0 4⟩ := rfl
  have hsettled : Settled ['5'] :=
    settled_of_skipSpace (Lexeme.skipSpace_of_not_space (by decide) (by decide) [])
  -- the stage wants a comma, and the five is the only word that can stand there
  have hstuck : Reading.StuckAt ⟨[], [], .boundsComma 0 4⟩ ['5'] := by
    refine ⟨fun w after hword => ?_, fun hnil => absurd hnil (List.cons_ne_nil _ _)⟩
    obtain ⟨rest, hnext⟩ := next?_of_spells hsettled hword
    have hfive : Lexeme.next? ['5'] = some (.number false 5, ['5'], []) :=
      Lexeme.next?_digits false (List.cons_ne_nil '5' []) (List.forall_mem_singleton.2 rfl) nofun
    rw [hfive] at hnext
    rw [← (Prod.mk.inj (Option.some.inj hnext)).1]
    rfl
  have hfault : FaultAt "1\n4 5".toList "1\n4 ".toList ['5'] :=
    ⟨rfl, hsettled, _, hwords, viable_iff.2 ⟨_, hthrough⟩, (stuckAt_iff hthrough).1 hstuck⟩
  exact ⟨hfault, (faults_are_located "1\n4 5").2 _ _ hfault⟩

end NetworkText

end ConstraintNet

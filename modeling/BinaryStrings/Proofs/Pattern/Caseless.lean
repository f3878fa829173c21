import BinaryStrings.Pattern.Basic
import BinaryStrings.Proofs.Pattern.CarriedBody
import BinaryStrings.Proofs.Pattern.Merging

/-!
# Patterns without regard to case

The option to disregard case changes what a pattern matches, but not whether a text is a pattern.  Its
parser hands the option on and never asks for it: every reader does the same from a cursor with the
option and from one without it.  When a tree is turned into a matcher, the option goes into the tests of
characters, and a mistake in the tree is found or not found whatever these are.

Main results:

- Theorem `IsBlind.parser`: the parser is blind to the option.
- Theorem `Tree.matcher_congr`: of the options only template mode bears on what is wrong with a tree.
- Theorem `ofText_map`: a text is refused for a search exactly as it is refused by the check.
-/

namespace BinaryStrings.Pattern

/-- The options with that to disregard case. -/
def Flags.caseless (flags : Flags) : Flags :=
  { flags with ignoreCase := true }

/-- The cursor with the option to disregard case. -/
def Cursor.caseless (cursor : Cursor) : Cursor :=
  { cursor with flags := cursor.flags.caseless }

/-! ## Readers that are blind to the option -/

/-- A reader does the same with the option to disregard case, and keeps it. -/
def IsBlind {α : Type} (r : Reading α) : Prop :=
  ∀ c : Cursor, r c.caseless = (r c).map fun read => (read.1, read.2.caseless)

namespace IsBlind

variable {α β : Type} {r r' : Reading α} {k : α → Reading β}

/-- What reads nothing is blind. -/
theorem pure (a : α) : IsBlind (Pure.pure a) :=
  fun _ => rfl

/-- So is what refuses everything. -/
theorem throw (error : Error) : IsBlind (MonadExcept.throw error : Reading α) :=
  fun _ => rfl

/-- So is what refuses a text behind some of its characters. -/
theorem failBack (kind : Mistake) (back : Nat) : IsBlind (Reading.failBack kind back : Reading α) :=
  fun _ => rfl

/-- So is what refuses a text at a position. -/
theorem failAt (kind : Mistake) (position : Nat) :
    IsBlind (Reading.failAt kind position : Reading α) :=
  fun _ => rfl

/-- What is read behind a reader may differ with the option. -/
theorem bind_run (hr : IsBlind r) {k k' : α → Reading β} {f : β × Cursor → β × Cursor}
    (hk : ∀ a c, k' a c.caseless = (k a c).map f) (c : Cursor) :
    (r >>= k') c.caseless = ((r >>= k) c).map f := by
  cases hread : r c with
  | error error =>
    have hcaseless : r c.caseless = .error error := by rw [hr c, hread]; rfl
    change (r c.caseless).bind _ = ((r c).bind _).map _
    rw [hcaseless, hread]
    rfl
  | ok read =>
    obtain ⟨a, c'⟩ := read
    have hcaseless : r c.caseless = .ok (a, c'.caseless) := by rw [hr c, hread]; rfl
    rw [Reading.bind_of_ok hcaseless, Reading.bind_of_ok hread]
    exact hk a c'

/-- A blind reader with blind ones behind it is blind. -/
theorem bind (hr : IsBlind r) (hk : ∀ a, IsBlind (k a)) : IsBlind (r >>= k) :=
  hr.bind_run hk

/-- What is asked of the cursor must not be the option. -/
theorem get_bind {k : Cursor → Reading β} (hk : ∀ c, IsBlind (k c))
    (hsame : ∀ c : Cursor, k c.caseless = k c) : IsBlind (get >>= k) := by
  intro c
  rw [Reading.get_bind_run, Reading.get_bind_run, hsame]
  exact hk c c

/-- A change of the cursor is blind if it is the same with the option. -/
theorem update {f : Cursor → Cursor} (hf : ∀ c : Cursor, f c.caseless = (f c).caseless) :
    IsBlind (modify f : Reading Unit) := by
  intro c
  change Except.ok ((), f c.caseless) = _
  rw [hf]
  rfl

/-- A choice between blind readers that does not depend on the cursor. -/
theorem ite {p : Prop} [Decidable p] (hr : IsBlind r) (hr' : IsBlind r') :
    IsBlind (if p then r else r') := by
  split
  · exact hr
  · exact hr'

/-! ### Tokens -/

/-- Looking at the next token does not change with the option. -/
theorem peek : IsBlind Reading.peek := by
  intro c
  rw [Reading.peek_run, Reading.peek_run]
  rfl

/-- Nor does moving in the text. -/
theorem moveTo (rest : List Char) (position : Nat) : IsBlind (Reading.moveTo rest position) := by
  intro c
  rw [Reading.moveTo_run, Reading.moveTo_run]
  split <;> rfl

/-- Nor does taking a token. -/
theorem next : IsBlind Reading.next := by
  intro c
  have hrest : c.caseless.rest = c.rest := rfl
  rw [Reading.next_run, Reading.next_run, hrest]
  cases Reading.firstToken? c.rest with
  | none => rfl
  | some token =>
    dsimp only
    split <;> rfl

/-- A character that may be there is taken with the option as without. -/
theorem accept (ch : Char) : IsBlind (Reading.accept ch) :=
  peek.bind fun _ => ite (next.bind fun _ => pure _) (pure _)

/-- So are characters that pass a test. -/
theorem takeWhile (test : Char → Bool) (most : Nat) : IsBlind (Reading.takeWhile test most) := by
  induction most with
  | zero => exact pure _
  | succ most ih =>
    rw [Reading.takeWhile]
    refine peek.bind fun token => ?_
    split
    · exact ite (next.bind fun _ => ih.bind fun _ => pure _) (pure _)
    · exact pure _

/-- So is the part of a name that is left. -/
theorem nameUpTo (closing : Char) (what : String) (fuel : Nat) (read : List Char) :
    IsBlind (Reading.nameUpTo closing what fuel read) := by
  induction fuel generalizing read with
  | zero => exact pure _
  | succ fuel ih =>
    rw [Reading.nameUpTo]
    refine next.bind fun token => ?_
    split
    · exact ite (failBack _ _) (failBack _ _)
    · exact ite (ite (failBack _ _) (pure _)) (ih _)

/-- So is a whole name. -/
theorem name (closing : Char) (what : String) : IsBlind (Reading.name closing what) :=
  get_bind (fun _ => nameUpTo _ _ _ _) fun _ => rfl

/-! ### Groups that are known -/

/-- References in a look-behind are refused with the option as without. -/
theorem checkLookBehind (index : Nat) : IsBlind (Reading.checkLookBehind index) := by
  refine get_bind (fun c => ?_) fun _ => rfl
  split
  · exact pure _
  · exact ite (failBack _ _) (ite (failBack _ _) (pure _))

/-- Groups are opened alike. -/
theorem openGroup (name : Option (List Char)) : IsBlind (Reading.openGroup name) := by
  intro c
  cases name with
  | none => rfl
  | some chars =>
    unfold Reading.openGroup
    rw [Reading.get_bind_run, Reading.get_bind_run]
    dsimp only [Cursor.caseless]
    cases c.names.lookup (String.ofList chars) <;> rfl

/-- They are closed alike. -/
theorem closeGroup (index : Nat) : IsBlind (Reading.closeGroup index) :=
  update fun _ => rfl

/-- What a look-behind notes does not depend on the option. -/
theorem setGroupsBefore (f : Cursor → Option Nat) (hf : ∀ c : Cursor, f c.caseless = f c) :
    IsBlind (modify fun cursor => { cursor with groupsBefore := f cursor }) := by
  refine update fun c => ?_
  rw [hf]
  rfl

/-- Names are known alike. -/
theorem groupNamed (chars : List Char) : IsBlind (Reading.groupNamed chars) := by
  refine get_bind (fun c => ?_) fun _ => rfl
  split
  · exact pure _
  · exact failBack _ _

/-- They are refused alike. -/
theorem checkName (chars : List Char) : IsBlind (Reading.checkName chars) :=
  ite (failBack _ _) (pure _)

/-- Conditions are noted alike. -/
theorem noteCondition (index position : Nat) : IsBlind (Reading.noteCondition index position) := by
  refine update fun c => ?_
  dsimp only [Cursor.caseless]
  split <;> rfl

/-! ### Escapes -/

/-- An escape by hexadecimal digits is blind to the option. -/
theorem hexEscape (c : Char) (size : Nat) : IsBlind (Pattern.hexEscape c size) :=
  (takeWhile _ _).bind fun _ => ite (failBack _ _) (ite (failBack _ _) (pure _))

/-- An escape by the name of a character is blind to the option. -/
theorem namedEscape : IsBlind Pattern.namedEscape := by
  refine (accept _).bind fun _ => ite (failBack _ _) ((name _ _).bind fun chars => ?_)
  refine get_bind (fun c => ?_) fun _ => rfl
  split
  · exact pure _
  · exact failBack _ _

/-- An escape by octal digits is blind to the option. -/
theorem octalEscape (c : Char) (digits : List Char) : IsBlind (Pattern.octalEscape c digits) :=
  ite (failBack _ _) (pure _)

/-- The escapes that have one meaning everywhere are blind to the option. -/
theorem commonEscape (c : Char) : IsBlind (Pattern.commonEscape c) :=
  ite (hexEscape _ _) (ite (hexEscape _ _) (ite (hexEscape _ _) (ite namedEscape
    (ite (failBack _ _) (pure _)))))

/-- An escape in a class is blind to the option. -/
theorem escapeInClass (c : Char) : IsBlind (Pattern.escapeInClass c) := by
  unfold Pattern.escapeInClass
  split
  · exact pure _
  · exact pure _
  · exact ite ((takeWhile _ _).bind fun digits => (octalEscape c digits).bind fun _ => pure _)
      ((commonEscape c).bind fun _ => pure _)

/-- A reference by a number is blind to the option. -/
theorem reference (c : Char) (digits : List Char) : IsBlind (Pattern.reference c digits) :=
  get_bind (fun _ => ite (failBack _ _) (ite (failBack _ _)
    ((checkLookBehind _).bind fun _ => pure _))) fun _ => rfl

/-- An escape by a number is blind to the option, whether it is a character or a reference. -/
theorem numberEscape (c : Char) : IsBlind (Pattern.numberEscape c) := by
  refine (takeWhile _ _).bind fun digits => ?_
  split
  · exact reference c []
  · refine ite ((takeWhile _ _).bind fun third => ?_) (reference c digits)
    split
    · exact reference c digits
    · exact (octalEscape _ _).bind fun _ => pure _

/-- An escape outside of a class is blind to the option. -/
theorem escapeOutside (c : Char) : IsBlind (Pattern.escapeOutside c) := by
  unfold Pattern.escapeOutside
  split
  · exact pure _
  · exact pure _
  · exact pure _
  · exact ite ((takeWhile _ _).bind fun _ => pure _)
      (ite (numberEscape c) ((commonEscape c).bind fun _ => pure _))

/-! ### Classes -/

/-- An item of a class is blind to the option. -/
theorem itemOf (token : Token) : IsBlind (Pattern.itemOf token) := by
  cases token with
  | char c => exact pure _
  | escape c => exact escapeInClass c

/-- A range of a class is blind to the option. -/
theorem rangeOf (first last : Token) (low high : ClassItem) :
    IsBlind (Pattern.rangeOf first last low high) := by
  unfold Pattern.rangeOf
  split
  · exact ite (failBack _ _) (pure _)
  · exact failBack _ _

/-- The items of a class are read alike: the option decides on what they match, not on what they are. -/
theorem classItems (start fuel : Nat) (read : List ClassItem) :
    IsBlind (Pattern.classItems start fuel read) := by
  induction fuel generalizing read with
  | zero => exact failAt _ _
  | succ fuel ih =>
    rw [Pattern.classItems]
    refine next.bind fun token => ?_
    split
    · exact failAt _ _
    · rename_i token
      refine ite (pure _) ((itemOf token).bind fun item => (accept _).bind fun _ => ite (ih _) ?_)
      refine next.bind fun last => ?_
      split
      · exact failAt _ _
      · exact ite (pure _) ((itemOf _).bind fun _ => (rangeOf _ _ _ _).bind fun _ => ih _)

/-- A class is blind to the option. -/
theorem readClass (start : Nat) : IsBlind (Pattern.readClass start) := by
  refine (accept _).bind fun negated => get_bind (fun c => ?_) fun _ => rfl
  refine (classItems _ _ _).bind fun items => ?_
  split
  · exact pure _
  · exact pure _

/-! ### Options -/

/-- A letter that is no option is refused alike. -/
theorem refuseFlag (token : Token) (missing : Mistake) :
    IsBlind (Pattern.refuseFlag token missing : Reading α) :=
  failBack _ _

/-- A list of options to turn on is blind to the option. -/
theorem flagsOn (fuel : Nat) (on : Flags) (token : Token) :
    IsBlind (Pattern.flagsOn fuel on token) := by
  induction fuel generalizing on token with
  | zero => exact pure _
  | succ fuel ih =>
    rw [Pattern.flagsOn]
    refine ite (failBack _ _) ?_
    split
    · exact refuseFlag _ _
    · refine ite (failBack _ _) (next.bind fun token => ?_)
      split
      · exact failBack _ _
      · exact ite (pure _) (ih _ _)

/-- A list of options to turn off is blind to the option. -/
theorem flagsOff (missing : Mistake) (fuel : Nat) (off : Flags) (token : Token) :
    IsBlind (Pattern.flagsOff missing fuel off token) := by
  induction fuel generalizing missing off token with
  | zero => exact pure _
  | succ fuel ih =>
    rw [Pattern.flagsOff]
    refine ite (failBack _ _) ?_
    split
    · exact refuseFlag _ _
    · refine ite (failBack _ _) (next.bind fun token => ?_)
      split
      · exact failBack _ _
      · exact ite (pure _) (ih _ _ _)

/-- Options of the whole pattern are added to those in force; the option stays among them. -/
theorem flagsEnd (fuel : Nat) (on : Flags) (closing : Token) :
    IsBlind (Pattern.flagsEnd fuel on closing) := by
  have hchecked : ∀ off, IsBlind (flagsEnd.flagsChecked on off) := fun off =>
    ite (failBack _ _) (ite (failBack _ _) (pure _))
  -- Options of the whole pattern are added to those that the cursor has.
  have hunion : ∀ c : Cursor, c.flags.caseless.union on = (c.flags.union on).caseless := fun _ => by
    simp [Flags.caseless, Flags.union, Flags.zip]
  refine ite ((update fun c => ?_).bind fun _ => pure _) (ite (failBack _ _) (ite ?_ (hchecked _)))
  · dsimp only [Cursor.caseless]
    rw [hunion]
  · refine next.bind fun token => ?_
    split
    · exact failBack _ _
    · exact (flagsOff _ _ _ _).bind fun off => hchecked off

/-- A list of options is blind to the option. -/
theorem readFlags (token : Token) : IsBlind (Pattern.readFlags token) := by
  rw [readFlags_eq]
  exact get_bind (fun _ => ite (flagsEnd _ _ _) ((flagsOn _ _ _).bind fun _ => flagsEnd _ _ _))
    fun _ => rfl

/-! ### Repetition -/

/-- A number of repetitions is blind to the option. -/
theorem countOf? (digits : List Char) : IsBlind (Pattern.countOf? digits) :=
  ite (pure _) (ite (throw _) (pure _))

/-- Where braces hold no counts, the reader goes back to the cursor at their start. -/
theorem readCounts : IsBlind Pattern.readCounts := by
  intro start
  have hend : ∀ low high c, countsEnd start.caseless low high c.caseless =
      (countsEnd start low high c).map fun read => (read.1, read.2.caseless) := by
    intro low high
    refine (accept _).bind_run fun found => ?_
    cases found with
    | false => exact fun _ => rfl
    | true =>
      refine (countOf? low).bind fun least => (countOf? high).bind fun most => ?_
      unfold countsChecked
      split
      · exact pure _
      · exact ite (failAt _ _) (pure _)
  rw [readCounts_eq, Reading.get_bind_run, Reading.get_bind_run]
  refine peek.bind_run (fun token c => ?_) start
  split
  · rfl
  · refine (takeWhile _ _).bind_run (fun low => (accept _).bind_run fun comma => ?_) c
    cases comma with
    | false => exact hend low low
    | true => exact (takeWhile _ _).bind_run fun high => hend low high

/-- A quantifier is blind to the option. -/
theorem quantifier (c : Char) : IsBlind (Pattern.quantifier c) := by
  unfold Pattern.quantifier
  split
  · exact pure _
  · exact pure _
  · exact pure _
  · exact readCounts

/-- What is behind a quantifier is blind to the option. -/
theorem readGreed : IsBlind Pattern.readGreed :=
  (accept _).bind fun _ => ite (pure _) ((accept _).bind fun _ => ite (pure _) (pure _))

/-- The item before a quantifier is repeated alike. -/
theorem repeatItem (start : Nat) (counts : Counts) (item : Option Tree) :
    IsBlind (Pattern.repeatItem start counts item) := by
  unfold Pattern.repeatItem
  split
  · exact failAt _ _
  · exact failAt _ _
  · exact failAt _ _
  · exact readGreed.bind fun _ => pure _

/-! ### Names and comments -/

/-- A comment in a group is blind to the option. -/
theorem skipComment (start fuel : Nat) : IsBlind (Pattern.skipComment start fuel) := by
  induction fuel with
  | zero => exact failAt _ _
  | succ fuel ih =>
    rw [Pattern.skipComment]
    refine peek.bind fun token => ?_
    split
    · exact failAt _ _
    · exact next.bind fun _ => ite (pure _) ih

/-- A comment up to the end of the line is blind to the option. -/
theorem skipLine (fuel : Nat) : IsBlind (Pattern.skipLine fuel) := by
  induction fuel with
  | zero => exact pure _
  | succ fuel ih =>
    rw [Pattern.skipLine]
    refine next.bind fun token => ?_
    split
    · exact pure _
    · exact ite (pure _) ih

/-- A condition is blind to the option. -/
theorem readCondition : IsBlind Pattern.readCondition := by
  refine (name _ _).bind fun chars => ite (groupNamed _) ?_
  dsimp only
  split
  · exact failBack _ _
  · refine ite (failBack _ _) (ite (failBack _ _) (ite (failBack _ _) ?_))
    exact get_bind (fun _ => (noteCondition _ _).bind fun _ => pure _) fun _ => rfl

/-- A reference by name is blind to the option. -/
theorem namedReference : IsBlind Pattern.namedReference := by
  refine (name _ _).bind fun chars => (checkName _).bind fun _ => (groupNamed _).bind fun index => ?_
  exact get_bind (fun _ => ite (failBack _ _) ((checkLookBehind _).bind fun _ => pure _)) fun _ => rfl

/-! ### Openings -/

/-- What opens with a name is blind to the option. -/
theorem readNamedOpening : IsBlind Pattern.readNamedOpening := by
  refine (accept _).bind fun _ =>
    ite ((name _ _).bind fun _ => (checkName _).bind fun _ => pure _) ?_
  refine (accept _).bind fun _ => ite (namedReference.bind fun _ => pure _) (next.bind fun token => ?_)
  split
  · exact failBack _ _
  · exact failBack _ _

/-- What the sign of a look-behind starts is blind to the option. -/
theorem readLookBehind : IsBlind Pattern.readLookBehind := by
  refine next.bind fun token => ?_
  split
  · exact failBack _ _
  · exact pure _
  · exact pure _
  · exact failBack _ _

/-- Whatever a parenthesis opens is blind to the option. -/
theorem readOpening (start : Nat) : IsBlind (Pattern.readOpening start) := by
  refine (accept _).bind fun _ => ite (pure _) (next.bind fun token => ?_)
  split
  · exact failBack _ _
  · exact readNamedOpening
  · exact pure _
  · exact get_bind (fun _ => (skipComment _ _).bind fun _ => pure _) fun _ => rfl
  · exact pure _
  · exact pure _
  · exact readLookBehind
  · exact pure _
  · exact pure _
  · refine ite ((readFlags _).bind fun given => ?_) (failBack _ _)
    split
    · exact pure _
    · exact pure _

/-- A closing parenthesis is blind to the option. -/
theorem closing (start : Nat) : IsBlind (Pattern.closing start) :=
  (accept _).bind fun _ => ite (failAt _ _) (pure _)

/-! ### Alternatives, items and groups -/

/-- A call is refused whatever the options are. -/
theorem enter (calls : Nat) : IsBlind (Pattern.enter calls) := by
  cases calls with
  | zero => exact fun _ => rfl
  | succ left => exact pure left

section

variable {fuel : Nat}

/-- The items behind a token are blind if groups and other items are. -/
theorem readItemsFrom
    (hitems : ∀ calls verbose first read,
      IsBlind (Pattern.readItems fuel calls verbose first read))
    (hgroup : ∀ calls verbose start opening,
      IsBlind (Pattern.readGroup fuel calls verbose start opening))
    (calls left : Nat) (verbose first : Bool) (read : List Tree) (start : Nat) (c : Char) :
    IsBlind (Pattern.readItemsFrom fuel calls left verbose first read start c) := by
  refine ite (hitems _ _ _ _) (ite ?comment (ite ?_ (ite ?repeated (ite (hitems _ _ _ _)
    (ite (hitems _ _ _ _) (ite (hitems _ _ _ _) (ite ?opened (hitems _ _ _ _))))))))
  case comment => exact get_bind (fun _ => (skipLine _).bind fun _ => hitems _ _ _ _) fun _ => rfl
  · exact (readClass _).bind fun _ => hitems _ _ _ _
  case repeated =>
    refine (quantifier c).bind fun counts => ?_
    split
    · exact hitems _ _ _ _
    · exact (repeatItem _ _ _).bind fun _ => hitems _ _ _ _
  case opened =>
    refine (readOpening start).bind fun opening => ?_
    split
    · exact hitems _ _ _ _
    · exact ite (get_bind (fun _ => hitems _ _ _ _) fun _ => rfl) (failAt _ _)
    · exact hitems _ _ _ _
    · exact (hgroup _ _ _ _).bind fun _ => hitems _ _ _ _

/-- A group is blind if its body is. -/
theorem readGroup_succ (hitems : ∀ calls verbose first read,
      IsBlind (readItems fuel calls verbose first read))
    (halternatives : ∀ calls verbose outermost read,
      IsBlind (readAlternatives fuel calls verbose outermost read))
    (calls : Nat) (verbose : Bool) (start : Nat) (opening : Opening) :
    IsBlind (readGroup (fuel + 1) calls verbose start opening) := by
  cases opening with
  | look behind negated =>
    rw [readGroup_look]
    have hlook : ∀ outer, IsBlind (readLook fuel calls verbose start outer behind negated) := fun outer =>
      (halternatives _ _ _ _).bind fun _ => (setGroupsBefore (fun _ => outer) fun _ => rfl).bind
        fun _ => (closing _).bind fun _ => pure _
    refine get_bind (fun c => ite ?_ (hlook _)) fun _ => rfl
    exact (setGroupsBefore (fun cursor => some cursor.groups) fun _ => rfl).bind fun _ => hlook _
  | nothing =>
    rw [readGroup]
    exact pure _
  | wholeFlags =>
    rw [readGroup]
    exact pure _
  | reference item =>
    rw [readGroup]
    exact pure _
  | capture name =>
    rw [readGroup]
    exact (openGroup _).bind fun index => (halternatives _ _ _ _).bind fun _ =>
      (closing _).bind fun _ => (closeGroup index).bind fun _ => pure _
  | plain on off =>
    rw [readGroup]
    exact (halternatives _ _ _ _).bind fun _ => (closing _).bind fun _ => pure _
  | atomic =>
    rw [readGroup]
    exact (halternatives _ _ _ _).bind fun _ => (closing _).bind fun _ => pure _
  | conditional =>
    rw [readGroup]
    refine readCondition.bind fun index => (checkLookBehind index).bind fun _ =>
      (hitems _ _ _ _).bind fun yes => (accept _).bind fun found => ?_
    have hclose : ∀ no, IsBlind (do Pattern.closing start; return Tree.conditional index yes no) :=
      fun no => (closing _).bind fun _ => pure _
    exact ite ((hitems _ _ _ _).bind fun no => peek.bind fun _ =>
        ite ((failBack _ _).bind hclose) ((pure no).bind hclose)) ((pure _).bind hclose)

/-- Items are blind if groups and the items behind them are. -/
theorem readItems_succ (hitems : ∀ calls verbose first read,
      IsBlind (readItems fuel calls verbose first read))
    (hgroup : ∀ calls verbose start opening,
      IsBlind (readGroup fuel calls verbose start opening))
    (calls : Nat) (verbose first : Bool) (read : List Tree) :
    IsBlind (readItems (fuel + 1) calls verbose first read) := by
  rw [Pattern.readItems_succ]
  refine (enter _).bind fun left => ?_
  refine get_bind (fun c => peek.bind fun token => ?_) fun _ => rfl
  split
  · exact pure _
  · exact next.bind fun _ => (escapeOutside _).bind fun _ => hitems _ _ _ _
  · exact ite (pure _) (next.bind fun _ => readItemsFrom hitems hgroup _ _ _ _ _ _ _)

/-- Alternatives are blind if their items are. -/
theorem readAlternatives_succ
    (hitems : ∀ calls verbose first read,
      IsBlind (readItems fuel calls verbose first read))
    (halternatives : ∀ calls verbose outermost read,
      IsBlind (readAlternatives fuel calls verbose outermost read))
    (calls : Nat) (verbose outermost : Bool) (read : List Tree) :
    IsBlind (readAlternatives (fuel + 1) calls verbose outermost read) := by
  rw [readAlternatives]
  refine (enter _).bind fun left => (hitems _ _ _ _).bind fun _ => (accept _).bind fun _ => ite ?_ (pure _)
  exact get_bind (fun _ => halternatives _ _ _ _) fun _ => rfl

end

/-- The parser never asks for the option, whatever its fuel is. -/
theorem parser (fuel : Nat) :
    (∀ calls verbose first read,
      IsBlind (readItems fuel calls verbose first read)) ∧
      (∀ calls verbose outermost read,
        IsBlind (readAlternatives fuel calls verbose outermost read)) ∧
      ∀ calls verbose start opening,
      IsBlind (readGroup fuel calls verbose start opening) := by
  induction fuel with
  | zero =>
    refine ⟨fun _ _ _ _ => ?_, fun _ _ _ _ => ?_, fun _ _ _ _ => ?_⟩
    · exact failBack _ _
    · exact failBack _ _
    · exact failBack _ _
  | succ fuel ih =>
    obtain ⟨hitems, halternatives, hgroup⟩ := ih
    exact ⟨readItems_succ hitems hgroup, readAlternatives_succ hitems halternatives,
      readGroup_succ hitems halternatives⟩

end IsBlind

/-! ## Whole patterns -/

/-- The character set does not depend on the option. -/
theorem settledFlags_caseless (flags : Flags) (c : Cursor) :
    settledFlags flags.caseless c.caseless =
      (settledFlags flags c).map fun read => (read.1.caseless, read.2.caseless) := by
  obtain ⟨ignoreCase, multiline, dotAll, verbose, ascii, unicode, template⟩ := flags
  cases ascii with
  | false => rfl
  | true => cases unicode <;> rfl

/-- Conditions are checked alike. -/
theorem isBlind_checkConditions : IsBlind checkConditions := by
  refine IsBlind.get_bind (fun c => ?_) fun _ => rfl
  split
  · exact IsBlind.failAt _ _
  · exact IsBlind.pure _

/-- A whole pattern is read alike, and the option is among those in force at its start. -/
theorem readWhole_caseless (c : Cursor) : readWhole c.caseless =
    (readWhole c).map fun read => ((read.1.1.caseless, read.1.2), read.2.caseless) := by
  unfold readWhole
  rw [Reading.get_bind_run, Reading.get_bind_run]
  refine (IsBlind.moveTo _ _).bind_run (fun _ => ?_) c
  refine ((IsBlind.parser _).2.1 _ _ _ _).bind_run fun tree c => ?_
  rw [Reading.get_bind_run, Reading.get_bind_run]
  have hsettled := settledFlags_caseless c.flags c
  cases hread : settledFlags c.flags c with
  | error error =>
    rw [hread] at hsettled
    change (settledFlags c.flags.caseless c.caseless).bind _ = ((settledFlags c.flags c).bind _).map _
    rw [hsettled, hread]
    rfl
  | ok read =>
    obtain ⟨flags, c'⟩ := read
    rw [hread] at hsettled
    rw [Reading.bind_of_ok hread]
    refine Eq.trans (Reading.bind_of_ok hsettled) ?_
    refine IsBlind.peek.bind_run (fun token c => ?_) c'
    split
    · rfl
    · exact isBlind_checkConditions.bind_run (fun _ _ => rfl) c

/-- A text has the same tree with the option, and the same mistakes. -/
theorem parse_caseless (characters : Unicode.CharacterNames) (flags : Flags) (text : List Char) :
    parse characters flags.caseless text =
      (parse characters flags text).map fun read => (read.1.caseless, read.2) := by
  change (·.1) <$> readWhole (Cursor.start characters flags text).caseless =
    ((·.1) <$> readWhole (Cursor.start characters flags text)).map _
  rw [readWhole_caseless]
  cases readWhole (.start characters flags text) <;> rfl

/-! ## Matchers -/

/-- Template mode inside a group depends on template mode outside of it. -/
theorem Flags.template_inside {flags flags' : Flags} (h : flags'.template = flags.template)
    (on off : Flags) : (flags'.inside on off).template = (flags.inside on off).template := by
  unfold inside
  dsimp only
  split <;> simp [union, without, zip, h]

/-- Matchers that look behind alike are made into such by what goes on alike with them. -/
theorem looksNear_bind {made made' : Except Error Matcher} {k k' : Matcher → Except Error Matcher}
    (hmade : made'.map Matcher.looksNear = made.map Matcher.looksNear)
    (hk : ∀ matcher matcher' : Matcher, matcher'.looksNear = matcher.looksNear →
      (k' matcher').map Matcher.looksNear = (k matcher).map Matcher.looksNear) :
    (made' >>= k').map Matcher.looksNear = (made >>= k).map Matcher.looksNear := by
  cases made with
  | error error =>
    cases made' with
    | error error' => exact congrArg Except.error (Except.error.inj hmade)
    | ok matcher' => cases hmade
  | ok matcher =>
    cases made' with
    | error error' => cases hmade
    | ok matcher' => exact hk matcher matcher' (Except.ok.inj hmade)

/-- Of the options only template mode bears on whether a tree has a matcher, and none on how far that
looks behind. -/
theorem Tree.matcher_congr (known : GroupWidths) {flags flags' : Flags}
    (h : flags'.template = flags.template) (tree : Tree) :
    (tree.matcher known flags').map Matcher.looksNear =
      (tree.matcher known flags).map Matcher.looksNear := by
  induction tree generalizing flags flags' with
  | seq first rest ihFirst ihRest =>
    refine looksNear_bind (ihFirst h) fun m m' hm => looksNear_bind (ihRest h) fun n n' hn => ?_
    change Except.ok _ = Except.ok _
    rw [Matcher.looksNear_followedBy, Matcher.looksNear_followedBy, hm, hn]
  | alt first second ihFirst ihSecond =>
    refine looksNear_bind (ihFirst h) fun m m' hm => looksNear_bind (ihSecond h) fun n n' hn => ?_
    exact congrArg Except.ok (congrArg₂ and hm hn)
  | group index on off body ih =>
    refine looksNear_bind (ih (Flags.template_inside h on off)) fun m m' hm => ?_
    cases index <;> exact congrArg Except.ok hm
  | atomic body ih => exact looksNear_bind (ih h) fun m m' hm => congrArg Except.ok hm
  | look behind negated body ih =>
    rw [matcher, matcher]
    split
    · rfl
    · split
      · rfl
      · exact looksNear_bind (ih h) fun m m' hm => congrArg (fun near => Except.ok (_ && near)) hm
  | conditional index yes no ihYes ihNo =>
    refine looksNear_bind (ihYes h) fun m m' hm => looksNear_bind (ihNo h) fun n n' hn => ?_
    exact congrArg Except.ok (congrArg₂ and hm hn)
  | repeated least most greed body ih =>
    rw [matcher, matcher, h]
    split
    · rfl
    · exact looksNear_bind (ih h) fun m m' hm => congrArg Except.ok hm
  | _ => rfl

/-- Whether a tree has a matcher that looks near is known from how far its matcher looks. -/
theorem Tree.settle_map (flags : Flags) (tree : Tree) : (tree.settle flags).map (fun _ => ()) =
    (tree.merged.matcher (tree.width []).2 flags).map Matcher.looksNear >>= fun near =>
      if near then .ok () else .error .lookBehindNotCoded := by
  unfold settle
  dsimp only
  cases tree.merged.matcher (tree.width []).2 flags with
  | error error => rfl
  | ok matcher =>
    change Except.map _ (if matcher.looksNear then _ else _) = if matcher.looksNear then _ else _
    split <;> rfl

/-- So it does not depend on case. -/
theorem Tree.settle_congr {flags flags' : Flags} (h : flags'.template = flags.template) (tree : Tree) :
    (tree.settle flags').map (fun _ => ()) = (tree.settle flags).map fun _ => () := by
  rw [settle_map, settle_map, matcher_congr _ h]

/-! ## Texts -/

/-- The options of a search with or without regard to case. -/
def caseFlags (ignoreCase : Bool) : Flags :=
  { Flags.none with ignoreCase }

section Texts

variable {characters : Unicode.CharacterNames}

/-- Without regard to case the same texts are patterns, and the same is wrong with the others. -/
theorem compile_caseFlags (ignoreCase : Bool) (text : String) :
    (compile characters (caseFlags ignoreCase) text).map (fun _ => ()) =
      (compile characters .none text).map fun _ => () := by
  cases ignoreCase with
  | false => rfl
  | true =>
    have hparse : parse characters (caseFlags true) text.toList = _ :=
      parse_caseless characters .none text.toList
    unfold compile
    rw [hparse]
    cases parse characters .none text.toList with
    | error error => rfl
    | ok read =>
      have htemplate : read.1.caseless.template = read.1.template := rfl
      exact read.2.settle_congr htemplate

/-- What the check accepts: a text that is not too long, passes the guard and has a matcher. -/
theorem check_eq_ok_iff {text : String} :
    check characters text = .ok () ↔ text.length ≤ mostLength ∧
      hasNestedRepetition text.toList = false ∧
        ∃ matcher, compile characters (caseFlags false) text = .ok matcher := by
  have hflags : caseFlags false = .none := rfl
  rw [check, hflags]
  by_cases hlength : mostLength < text.length
  · simp [hlength, Nat.not_le_of_lt hlength]
  · cases hguard : hasNestedRepetition text.toList with
    | true => simp [hlength]
    | false => cases compile characters .none text <;> simp [hlength, Nat.le_of_not_lt hlength]

/-- A text that passes the check has a matcher, with regard to case and without. -/
theorem exists_compile_of_check {text : String} (hcheck : check characters text = .ok ())
    (ignoreCase : Bool) : ∃ matcher, compile characters (caseFlags ignoreCase) text = .ok matcher := by
  obtain ⟨-, -, matcher, hplain⟩ := check_eq_ok_iff.1 hcheck
  have hcompile := @compile_caseFlags characters ignoreCase text
  rw [show compile characters .none text = .ok matcher from hplain] at hcompile
  cases hmade : compile characters (caseFlags ignoreCase) text with
  | error error =>
    rw [hmade] at hcompile
    cases hcompile
  | ok matcher => exact ⟨matcher, rfl⟩

/-- A text that passes the check gives the pattern of its matcher. -/
theorem ofText_of_compile {text : String} (hcheck : check characters text = .ok ())
    {caseSensitive : Bool} {matcher : Matcher}
    (hcompile : compile characters (caseFlags (!caseSensitive)) text = .ok matcher) :
    ofText characters caseSensitive text = .ok ⟨matcher⟩ := by
  have hmatcher : compile characters { Flags.none with ignoreCase := !caseSensitive } text =
      .ok matcher := hcompile
  rw [ofText, hcheck, hmatcher]
  rfl

end Texts

end BinaryStrings.Pattern

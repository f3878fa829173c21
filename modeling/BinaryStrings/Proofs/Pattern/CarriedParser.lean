import BinaryStrings.Pattern.Parser
import BinaryStrings.Proofs.Pattern.Carrying

/-!
# Parts of patterns at another place

The readers of escapes, classes, counts, options, names and openings are carried over to a text with a
tail: none of them takes a closing parenthesis that it does not look for.  Two need more.  Options of
the whole pattern would hold for the tail as well, and a comment at the end of the text would go on in
the tail; both are excluded here.

Main results:

- Theorem `Carries.escapeOutside`: an escape refers to a group that there is.
- Theorem `Carries.readOpening`: a parenthesis opens the same.
-/

namespace BinaryStrings.Pattern

open Cursor (Follows)

/-- What a parenthesis opens, if that is not options for the whole pattern, and what it opens at the
site. -/
def openingAt (site : Site) : Opening → Opening → Nat → Prop
  | .wholeFlags, _, _ => False
  | .reference item, opening', groups =>
    ∃ item', opening' = .reference item' ∧ treeAt site item item' groups
  | .capture (some name), opening', _ => opening' = .capture (some name) ∧ site.refers = true
  | .conditional, opening', _ => opening' = .conditional ∧ site.refers = true
  | opening, opening', _ => opening' = opening

/-! ## Counts -/

/-- The counts that digits spell, in the order in which they have to be. -/
def countsChecked (start : Cursor) (least most : Option Nat) : Reading (Option Counts) :=
  match most with
  | none => return some ⟨least.getD 0, none⟩
  | some most =>
    if most < least.getD 0 then Reading.failAt .countsReversed start.position
    else return some ⟨least.getD 0, some most⟩

/-- What is read behind the digits of counts. -/
def countsEnd (start : Cursor) (low high : List Char) : Reading (Option Counts) := do
  if !(← Reading.accept '}') then
    set start
    return none
  else
    countsChecked start (← countOf? low) (← countOf? high)

/-- Counts that do not stop at once. -/
def countsFrom (start : Cursor) : Reading (Option Counts) := do
  let low ← Reading.takeWhile Char.isDigit start.rest.length
  if ← Reading.accept ',' then
    let high ← Reading.takeWhile Char.isDigit start.rest.length
    countsEnd start low high
  else countsEnd start low low

/-- Counts are read in three parts. -/
theorem readCounts_eq :
    readCounts = (do
      let start ← get
      if (← Reading.peek) == some (.char '}') then return none else countsFrom start) :=
  rfl

/-! ## Options -/

/-- What is read behind the options to turn on. -/
def flagsEnd (fuel : Nat) (on : Flags) (closing : Token) : Reading (Option (Flags × Flags)) := do
  if closing == .char ')' then
    modify fun cursor => { cursor with flags := cursor.flags.union on }
    return none
  else if on.template then Reading.failBack .templateTurnedOn 1
  else if closing == .char '-' then
    match ← Reading.next with
    | none => Reading.failBack .noFlag 0
    | some token => flagsChecked on (← flagsOff .noFlag fuel .none token)
  else flagsChecked on .none
where
  /-- Options to turn on and off, if these can be. -/
  flagsChecked (on off : Flags) : Reading (Option (Flags × Flags)) :=
    if off.template then Reading.failBack .templateTurnedOff 1
    else if !(on.inter off).isEmpty then Reading.failBack .onAndOff 1
    else return some (on, off)

/-- Options are read in two parts. -/
theorem readFlags_eq (token : Token) :
    readFlags token = (do
      let fuel := (← get).rest.length + 2
      if token == .char '-' then flagsEnd fuel .none token
      else
        let read ← flagsOn fuel .none token
        flagsEnd fuel read.1 read.2) :=
  rfl

/-- Options to turn on are read from a text that does not get longer. -/
theorem flagsOn_length {fuel : Nat} {on : Flags} {token : Token} {read : Flags × Token}
    {c c' : Cursor} (h : flagsOn fuel on token c = .ok (read, c')) :
    c'.rest.length ≤ c.rest.length := by
  induction fuel generalizing on token c with
  | zero =>
    cases h
    exact Nat.le_refl _
  | succ fuel ih =>
    rw [flagsOn] at h
    split at h
    · exact absurd h (Reading.failBack_ne_ok _ _ _)
    · generalize flagOf? token = flag at h
      cases flag with
      | none => exact absurd h (Reading.failBack_ne_ok _ _ _)
      | some flag =>
        dsimp only at h
        split at h
        · exact absurd h (Reading.failBack_ne_ok _ _ _)
        · obtain ⟨token, c₁, hnext, h⟩ := Reading.bind_eq_ok.1 h
          have hlength := Reading.next_length hnext
          cases token with
          | none => exact absurd h (Reading.failBack_ne_ok _ _ _)
          | some token =>
            dsimp only at h
            split at h
            · cases h
              exact hlength
            · exact Nat.le_trans (ih h) hlength

/-- Options are opened by a question mark with a letter or a hyphen behind it. -/
theorem opensFlags_cons {rest : List Char} {token : Token}
    (htoken : Reading.firstToken? rest = some token)
    (hletter : (token == .char '-' || token == .char 'L' || (flagOf? token).isSome) = true) :
    opensFlags ('?' :: rest) = true := by
  cases token with
  | escape ch => cases hletter
  | char ch =>
    rw [Reading.eq_cons_of_firstToken? htoken]
    simpa [opensFlags] using hletter

namespace Carries

variable {site : Site}

/-! ## Escapes -/

/-- Hexadecimal digits end where they did: a closing parenthesis is none. -/
theorem hexEscape (c : Char) (size : Nat) :
    Carries site same (Pattern.hexEscape c size) (Pattern.hexEscape c size) := by
  intro cursor d h
  refine (takeWhile (by decide) h (.inl rfl)).bind_same fun digits _ _ _ hfollows => ?_
  split
  · exact .failBack
  · dsimp only
    split
    · exact .failBack
    · exact .pure hfollows rfl

/-- Characters have the same names at the other place. -/
theorem namedEscape : Carries site same Pattern.namedEscape Pattern.namedEscape := by
  refine (accept (by decide)).bind_same fun found => ?_
  split
  · exact failBack _ _
  · refine (name _ _).bind_same fun chars c d h => .get_bind ?_
    rw [h.characters_same]
    split
    · exact .pure h rfl
    · exact .failBack

/-- The digits of an octal escape were read before. -/
theorem octalEscape (c : Char) (digits : List Char) :
    Carries site same (Pattern.octalEscape c digits) (Pattern.octalEscape c digits) := by
  unfold Pattern.octalEscape
  dsimp only
  split
  · exact failBack _ _
  · exact pure fun _ => rfl

/-- So the escapes that have one meaning everywhere are carried over. -/
theorem commonEscape (c : Char) :
    Carries site same (Pattern.commonEscape c) (Pattern.commonEscape c) := by
  unfold Pattern.commonEscape
  split
  · exact hexEscape _ _
  · split
    · exact hexEscape _ _
    · split
      · exact hexEscape _ _
      · split
        · exact namedEscape
        · split
          · exact failBack _ _
          · exact pure fun _ => rfl

/-- So are escapes in a class. -/
theorem escapeInClass (c : Char) :
    Carries site same (Pattern.escapeInClass c) (Pattern.escapeInClass c) := by
  unfold Pattern.escapeInClass
  split
  · exact pure fun _ => rfl
  · exact pure fun _ => rfl
  · split
    · intro cursor d h
      refine (takeWhile (by decide) h (.inl rfl)).bind_same fun digits _ _ _ hfollows => ?_
      exact ((octalEscape c digits).bind_same fun n => pure fun _ => rfl) hfollows
    · exact (commonEscape c).bind_same fun n => pure fun _ => rfl

/-- A reference is carried over where no groups are before it. -/
theorem reference (hrefers : site.refers = true) (c : Char) (digits : List Char) :
    Carries site (treeAt site) (Pattern.reference c digits) (Pattern.reference c digits) := by
  intro cursor d h
  have hgroups : d.groups = cursor.groups := by
    rw [h.groups_eq, site.before_eq hrefers, Nat.add_zero]
  refine .get_bind ?_
  rw [hgroups, h.closed_eq hrefers]
  split
  · exact .failBack
  · split
    · exact .failBack
    · rename_i hclosed
      have hindex : IsGroup (Numeral.valueOf 10 (c :: digits)) cursor.groups :=
        h.numbered.closed _ (by simpa using hclosed)
      refine (checkLookBehind hrefers _ h).bind_same fun _ c₁ _ hmore hfollows => ?_
      exact .pure hfollows (treeAt_self hrefers (hindex.mono hmore))

/-- So is an escape by number: its digits end where they did. -/
theorem numberEscape (hrefers : site.refers = true) (c : Char) :
    Carries site (treeAt site) (Pattern.numberEscape c) (Pattern.numberEscape c) := by
  intro cursor d h
  refine (takeWhile (by decide) h (.inl rfl)).bind_same fun digits _ _ _ hfollows => ?_
  split
  · exact reference hrefers c [] hfollows
  · split
    · refine (takeWhile (by decide) hfollows (.inl rfl)).bind_same fun third _ _ _ hfollows' => ?_
      split
      · exact reference hrefers c digits hfollows'
      · exact ((octalEscape _ _).bind_same fun n => pure fun _ => ⟨trivial, rfl⟩) hfollows'
    · exact reference hrefers c digits hfollows

/-- Digits other than zero may refer to groups. -/
theorem escapeOutside {c : Char} (hc : site.refers = true ∨ isReferenceDigit c = false) :
    Carries site (treeAt site) (Pattern.escapeOutside c) (Pattern.escapeOutside c) := by
  unfold Pattern.escapeOutside
  split
  · exact pure fun _ => ⟨trivial, rfl⟩
  · exact pure fun _ => ⟨trivial, rfl⟩
  · exact pure fun _ => ⟨trivial, rfl⟩
  · split
    · intro cursor d h
      refine (takeWhile (by decide) h (.inl rfl)).bind_same fun digits _ _ _ hfollows => ?_
      exact .pure hfollows ⟨trivial, rfl⟩
    · split
      · rename_i hzero hdigit
        have hreference : isReferenceDigit c = true := by simpa [isReferenceDigit, hdigit] using hzero
        exact numberEscape (hc.resolve_right (by simp [hreference])) c
      · exact (commonEscape c).bind_same fun n => pure fun _ => ⟨trivial, rfl⟩

/-! ## Classes -/

/-- Items of a class are carried over. -/
theorem itemOf (token : Token) :
    Carries site same (Pattern.itemOf token) (Pattern.itemOf token) := by
  cases token with
  | char c => exact pure fun _ => rfl
  | escape c => exact escapeInClass c

/-- So are ranges. -/
theorem rangeOf (first last : Token) (low high : ClassItem) :
    Carries site same (Pattern.rangeOf first last low high)
      (Pattern.rangeOf first last low high) := by
  unfold Pattern.rangeOf
  split
  · split
    · exact failBack _ _
    · exact pure fun _ => rfl
  · exact failBack _ _

/-- So are the items of a class up to its bracket. -/
theorem classItems {start start' fuel fuel' : Nat} (hfuel : fuel ≤ fuel') (read : List ClassItem) :
    Carries site same (Pattern.classItems start fuel read)
      (Pattern.classItems start' fuel' read) := by
  induction fuel generalizing fuel' read with
  | zero => exact fun _ _ _ => .failAt
  | succ fuel ih =>
    obtain ⟨fuel', rfl⟩ : ∃ n, fuel' = n + 1 := ⟨fuel' - 1, by omega⟩
    have hless : fuel ≤ fuel' := by omega
    intro c d h
    rw [Pattern.classItems, Pattern.classItems]
    refine .next_bind h (fun _ => Reading.failAt_ne_ok _ _) fun token c₁ d₁ _ hfollows => ?_
    dsimp only
    split
    · exact .pure hfollows rfl
    · refine (itemOf token).bind_same (fun item => ?_) hfollows
      refine (accept (by decide)).bind_same fun hyphen => ?_
      split
      · exact ih hless _
      · intro c₂ d₂ h₂
        refine .next_bind h₂ (fun _ => Reading.failAt_ne_ok _ _) fun last c₃ d₃ _ h₃ => ?_
        dsimp only
        split
        · exact .pure h₃ rfl
        · refine (itemOf last).bind_same (fun high => ?_) h₃
          exact (rangeOf _ _ _ _).bind_same fun range => ih hless _

/-- So is a whole class. -/
theorem readClass (start start' : Nat) :
    Carries site (treeAt site) (Pattern.readClass start) (Pattern.readClass start') := by
  refine (accept (by decide)).bind_same fun negated => ?_
  intro c d h
  refine .get_bind ((classItems ?_ []).bind_same (fun items => ?_) h)
  · rw [h.rest_eq, List.length_append]
    omega
  · split
    · split
      · exact pure fun _ => ⟨trivial, rfl⟩
      · exact pure fun _ => ⟨trivial, rfl⟩
    · exact pure fun _ => ⟨trivial, rfl⟩

/-! ## Repetition -/

/-- A number of repetitions is carried over. -/
theorem countOf? (digits : List Char) :
    Carries site same (Pattern.countOf? digits) (Pattern.countOf? digits) := by
  unfold Pattern.countOf?
  split
  · exact pure fun _ => rfl
  · dsimp only
    split
    · exact fun _ _ _ => .of_fails fun x => by rintro ⟨⟩
    · exact pure fun _ => rfl

/-- So are two of them that are in order. -/
theorem countsChecked (start start' : Cursor) (least most : Option Nat) :
    Carries site same (Pattern.countsChecked start least most)
      (Pattern.countsChecked start' least most) := by
  unfold Pattern.countsChecked
  split
  · exact pure fun _ => rfl
  · split
    · exact fun _ _ _ => .failAt
    · exact pure fun _ => rfl

/-- What follows the digits of counts; if these are none, the reader goes back to the start. -/
theorem countsEnd {start start' : Cursor} (hstart : Follows site start start')
    (low high : List Char) {c d : Cursor} (h : Follows site c d)
    (hgroups : start.groups ≤ c.groups) (hbefore : c.groupsBefore = start.groupsBefore)
    {a : Option Counts} {c' : Cursor} (hread : Pattern.countsEnd start low high c = .ok (a, c')) :
    CarriedTo site same start d (Pattern.countsEnd start' low high) a c' := by
  obtain ⟨found, c₁, haccept, hrest⟩ := Reading.bind_eq_ok.1 hread
  obtain ⟨hmore, hbefore₁, found, d₁, haccept', rfl, h₁⟩ := accept (by decide) h _ _ haccept
  cases found with
  | false =>
    cases hrest
    exact ⟨Nat.le_refl _, rfl, none, start', Reading.bind_of_ok haccept', rfl, hstart⟩
  | true =>
    have hlow : Carries site same _ _ := countOf? low
    have hcarries := hlow.bind_same
      (fun least => (countOf? high).bind_same fun most => countsChecked start start' least most) h₁
    obtain ⟨hmore', hbefore', _, d', hrest', rfl, hfollows⟩ := hcarries a c' hrest
    exact ⟨by omega, hbefore'.trans (hbefore₁.trans hbefore), _, d',
      (Reading.bind_of_ok haccept').trans hrest', rfl, hfollows⟩

/-- The digits of a count are taken from a text that is not longer than at the start. -/
theorem readCounts : Carries site same Pattern.readCounts Pattern.readCounts := by
  intro c d h
  rw [readCounts_eq]
  have hlonger : c.rest.length ≤ d.rest.length := by
    rw [h.rest_eq, List.length_append]
    omega
  have hdigits : CarriesAt site same c d (Pattern.countsFrom c) (Pattern.countsFrom d) := by
    intro a c' hread
    obtain ⟨low, c₁, hlow, hread⟩ := Reading.bind_eq_ok.1 hread
    have hlength := Reading.takeWhile_length hlow
    obtain ⟨hmore, hbefore, low, d₁, hlow', rfl, h₁⟩ :=
      takeWhile (by decide) h (.inr ⟨Nat.le_refl _, hlonger⟩) _ _ hlow
    obtain ⟨comma, c₂, hcomma, hread⟩ := Reading.bind_eq_ok.1 hread
    have hlength' := Reading.accept_length hcomma
    obtain ⟨hmore', hbefore', comma, d₂, hcomma', rfl, h₂⟩ := accept (by decide) h₁ _ _ hcomma
    have hreach : Pattern.countsFrom d d = _ :=
      (Reading.bind_of_ok hlow').trans (Reading.bind_of_ok hcomma')
    cases comma with
    | false =>
      obtain ⟨hgroups, hrestored, _, d', hend, ha, hfollows⟩ :=
        countsEnd h low low h₂ (by omega) (hbefore'.trans hbefore) hread
      exact ⟨hgroups, hrestored, _, d', hreach.trans hend, ha, hfollows⟩
    | true =>
      obtain ⟨high, c₃, hhigh, hread⟩ := Reading.bind_eq_ok.1 hread
      obtain ⟨hmore'', hbefore'', high, d₃, hhigh', rfl, h₃⟩ :=
        takeWhile (by decide) h₂ (.inr ⟨by omega, hlonger⟩) _ _ hhigh
      obtain ⟨hgroups, hrestored, _, d', hend, ha, hfollows⟩ := countsEnd h low high h₃ (by omega)
        (hbefore''.trans (hbefore'.trans hbefore)) hread
      exact ⟨hgroups, hrestored, _, d', hreach.trans ((Reading.bind_of_ok hhigh').trans hend), ha,
        hfollows⟩
  refine .get_bind (.peek_bind h (fun _ t ht => ?_) fun token htoken => ?_)
  · have hne : (t == some (Token.char '}')) = false := by
      rcases ht with rfl | rfl <;> rfl
    rw [hne]
    exact hdigits
  · split
    · exact .pure h rfl
    · exact hdigits

/-- So is a quantifier. -/
theorem quantifier (c : Char) :
    Carries site same (Pattern.quantifier c) (Pattern.quantifier c) := by
  unfold Pattern.quantifier
  split
  · exact pure fun _ => rfl
  · exact pure fun _ => rfl
  · exact pure fun _ => rfl
  · exact readCounts

/-- So is the sign behind it. -/
theorem readGreed : Carries site same Pattern.readGreed Pattern.readGreed := by
  refine (accept (by decide)).bind_same fun isLazy => ?_
  split
  · exact pure fun _ => rfl
  · refine (accept (by decide)).bind_same fun possessive => ?_
    split
    · exact pure fun _ => rfl
    · exact pure fun _ => rfl

/-- An item has the same form with other numbers. -/
theorem repeatItem {start start' : Nat} (counts : Counts) {read read' : List Tree} {c d : Cursor}
    (h : Follows site c d) (hread : treesAt site read read' c.groups) :
    CarriesAt site (treeAt site) c d (Pattern.repeatItem start counts read.head?)
      (Pattern.repeatItem start' counts read'.head?) := by
  obtain ⟨hwithin, rfl⟩ := hread
  cases read with
  | nil => exact .failAt
  | cons item rest =>
    have hitem : item.IsWithin c.groups := hwithin item List.mem_cons_self
    have hrepeated : CarriesAt site (treeAt site) c d
        (do return .repeated counts.least counts.most (← Pattern.readGreed) item)
        (do return .repeated counts.least counts.most (← Pattern.readGreed)
              (item.renumber (· + site.before))) :=
      (readGreed h).bind_same fun greed c₁ d₁ hgroups h₁ => .pure h₁ ⟨hitem.mono hgroups, rfl⟩
    cases item with
    | anchor kind => exact .failAt
    | repeated least most greed body => exact .failAt
    | _ => exact hrepeated

/-! ## Options -/

/-- Options to turn on are carried over if the fuel suffices at both places. -/
theorem flagsOn {fuel fuel' : Nat} (on : Flags) (token : Token) {c d : Cursor}
    (h : Follows site c d) (hfuel : c.rest.length < fuel) (hmore : fuel ≤ fuel') :
    CarriesAt site same c d (Pattern.flagsOn fuel on token) (Pattern.flagsOn fuel' on token) := by
  induction fuel generalizing fuel' on token c d with
  | zero => omega
  | succ fuel ih =>
    obtain ⟨fuel', rfl⟩ : ∃ n, fuel' = n + 1 := ⟨fuel' - 1, by omega⟩
    rw [Pattern.flagsOn, Pattern.flagsOn]
    split
    · exact .failBack
    · split
      · exact .failBack
      · dsimp only
        split
        · exact .failBack
        · refine .next_bind h (fun _ => Reading.failBack_ne_ok _ _) fun token c₁ d₁ hpast h₁ => ?_
          have hlength := hpast.length_lt
          dsimp only
          split
          · exact .pure h₁ rfl
          · exact ih _ _ h₁ (by omega) (by omega)

/-- So are options to turn off. -/
theorem flagsOff (missing : Mistake) {fuel fuel' : Nat} (off : Flags) (token : Token) {c d : Cursor}
    (h : Follows site c d) (hfuel : c.rest.length < fuel) (hmore : fuel ≤ fuel') :
    CarriesAt site same c d (Pattern.flagsOff missing fuel off token)
      (Pattern.flagsOff missing fuel' off token) := by
  induction fuel generalizing missing fuel' off token c d with
  | zero => omega
  | succ fuel ih =>
    obtain ⟨fuel', rfl⟩ : ∃ n, fuel' = n + 1 := ⟨fuel' - 1, by omega⟩
    rw [Pattern.flagsOff, Pattern.flagsOff]
    split
    · exact .failBack
    · split
      · exact .failBack
      · split
        · exact .failBack
        · refine .next_bind h (fun _ => Reading.failBack_ne_ok _ _) fun token c₁ d₁ hpast h₁ => ?_
          have hlength := hpast.length_lt
          dsimp only
          split
          · exact .pure h₁ rfl
          · exact ih _ _ _ h₁ (by omega) (by omega)

/-- Options that can be turned on and off can be so at the other place. -/
theorem flagsChecked (on off : Flags) :
    Carries site same (flagsEnd.flagsChecked on off) (flagsEnd.flagsChecked on off) := by
  unfold flagsEnd.flagsChecked
  split
  · exact failBack _ _
  · split
    · exact failBack _ _
    · exact pure fun _ => rfl

/-- Options that do not hold for the whole pattern. -/
theorem flagsEnd {fuel fuel' : Nat} (on : Flags) {closing : Token} (hclosing : closing ≠ .char ')')
    {c d : Cursor} (h : Follows site c d) (hfuel : c.rest.length ≤ fuel) (hmore : fuel ≤ fuel') :
    CarriesAt site same c d (Pattern.flagsEnd fuel on closing)
      (Pattern.flagsEnd fuel' on closing) := by
  unfold Pattern.flagsEnd
  rw [beq_false_of_ne hclosing]
  simp only [Bool.false_eq_true, if_false]
  split
  · exact .failBack
  · split
    · refine .next_bind h (fun _ => Reading.failBack_ne_ok _ _) fun token c₁ d₁ hpast h₁ => ?_
      have hlength := hpast.length_lt
      refine (flagsOff _ _ _ h₁ (by omega) hmore).bind_same fun off _ _ _ h₂ => ?_
      exact flagsChecked on off h₂
    · exact flagsChecked on .none h

/-- Options of a group; those of the whole pattern would hold for what is behind it. -/
theorem readFlags (token : Token) {c d : Cursor} (h : Follows site c d)
    {given : Flags × Flags} {c' : Cursor} (hread : Pattern.readFlags token c = .ok (some given, c')) :
    CarriedTo site same c d (Pattern.readFlags token) (some given) c' := by
  have hlonger : c.rest.length ≤ d.rest.length := by
    rw [h.rest_eq, List.length_append]
    omega
  have hend : ∀ on closing {c₁ d₁}, Follows site c₁ d₁ → c₁.rest.length ≤ c.rest.length →
      Pattern.flagsEnd (c.rest.length + 2) on closing c₁ = .ok (some given, c') →
      CarriedTo site same c₁ d₁ (Pattern.flagsEnd (d.rest.length + 2) on closing) (some given)
        c' := by
    intro on closing c₁ d₁ h₁ hlength hread
    by_cases hclosing : closing = .char ')'
    · subst hclosing
      cases hread
    · exact flagsEnd on hclosing h₁ (by omega) (by omega) _ _ hread
  rw [readFlags_eq] at hread ⊢
  refine CarriesAt.get_bind_outcome hread fun hread => ?_
  dsimp only at hread ⊢
  by_cases hdash : (token == .char '-') = true
  · rw [if_pos hdash] at hread ⊢
    exact hend _ _ h (Nat.le_refl _) hread
  · rw [if_neg hdash] at hread ⊢
    obtain ⟨read, c₁, hon, hread⟩ := Reading.bind_eq_ok.1 hread
    exact (flagsOn _ _ h (by omega) (by omega) _ _ hon).bind_same fun d₁ _ h₁ =>
      hend _ _ h₁ (flagsOn_length hon) hread

/-! ## Names and comments -/

/-- A comment ends where it did, with its closing parenthesis. -/
theorem skipComment {start start' fuel fuel' : Nat} (hfuel : fuel ≤ fuel') :
    Carries site same (Pattern.skipComment start fuel) (Pattern.skipComment start' fuel') := by
  induction fuel generalizing fuel' with
  | zero => exact fun _ _ _ => .failAt
  | succ fuel ih =>
    obtain ⟨fuel', rfl⟩ : ∃ n, fuel' = n + 1 := ⟨fuel' - 1, by omega⟩
    intro c d h
    rw [Pattern.skipComment, Pattern.skipComment]
    refine .peek_bind h (fun _ _ _ => .failAt) fun token htoken => ?_
    dsimp only
    refine .next_bind h (fun hnil => ?_) fun _ c₁ d₁ _ h₁ => ?_
    · rw [hnil] at htoken
      cases htoken
    · split
      · exact .pure h₁ rfl
      · exact ih (by omega) h₁

/-- A line that ends within the text. -/
theorem skipLine {fuel fuel' : Nat} {c d : Cursor} (h : Follows site c d)
    (hfuel : c.rest.length < fuel) (hmore : fuel ≤ fuel') {c' : Cursor}
    (hread : Pattern.skipLine fuel c = .ok ((), c')) (hrest : c'.rest ≠ []) :
    CarriedTo site same c d (Pattern.skipLine fuel') () c' := by
  induction fuel generalizing fuel' c d with
  | zero => omega
  | succ fuel ih =>
    obtain ⟨fuel', rfl⟩ : ∃ n, fuel' = n + 1 := ⟨fuel' - 1, by omega⟩
    rw [Pattern.skipLine] at hread ⊢
    refine CarriesAt.next_bind_outcome h hread (fun hnil hend => ?_)
      fun token c₁ d₁ hpast h₁ hread => ?_
    · cases hend
      exact hrest hnil
    · have hlength := hpast.length_lt
      dsimp only at hread ⊢
      split at hread
      · rw [if_pos ‹_›]
        exact CarriesAt.pure h₁ rfl _ _ hread
      · rw [if_neg ‹_›]
        exact ih h₁ (by omega) (by omega) hread

section

variable (hrefers : site.refers = true)

include hrefers

/-- A condition is carried over where no groups are before it. -/
theorem readCondition : Carries site same Pattern.readCondition Pattern.readCondition := by
  refine (name _ _).bind_same fun chars => ?_
  dsimp only
  split
  · intro c d h index c' hread
    obtain ⟨hgroups, hbefore, index', d', hread', hindex, h'⟩ :=
      groupNamed hrefers chars h index c' hread
    refine ⟨hgroups, hbefore, index', d', hread', ?_, h'⟩
    rw [same, hindex.2, site.before_eq hrefers, Nat.add_zero]
  · split
    · exact failBack _ _
    · split
      · exact failBack _ _
      · split
        · exact failBack _ _
        · split
          · exact failBack _ _
          · intro c d h
            exact .get_bind
              (((noteCondition hrefers _ _ _).bind_same fun _ => pure fun _ => rfl) h)

/-- So is a reference by name. -/
theorem namedReference :
    Carries site (treeAt site) Pattern.namedReference Pattern.namedReference := by
  refine (name _ _).bind_same fun chars => (checkName chars).bind_same fun _ => ?_
  intro c d h
  refine (groupNamed hrefers chars h).bind fun index index' c₁ d₁ _ hindex h₁ => .get_bind ?_
  have hsame : index' = index := by rw [hindex.2, site.before_eq hrefers, Nat.add_zero]
  rw [hsame, h₁.closed_eq hrefers]
  split
  · exact .failBack
  · refine (checkLookBehind hrefers index h₁).bind_same fun _ c₂ d₂ hgroups h₂ => ?_
    exact .pure h₂ (treeAt_self hrefers (hindex.1.mono hgroups))

/-! ## Openings -/

/-- So is what opens with a name. -/
theorem readNamedOpening :
    Carries site (openingAt site) Pattern.readNamedOpening Pattern.readNamedOpening := by
  refine (accept (by decide)).bind_same fun isName => ?_
  split
  · exact (name _ _).bind_same fun chars =>
      (checkName chars).bind_same fun _ => pure fun _ => ⟨rfl, hrefers⟩
  · refine (accept (by decide)).bind_same fun isReference => ?_
    split
    · intro c d h
      exact (namedReference hrefers h).bind fun item item' _ _ _ hitem h₁ =>
        .pure h₁ ⟨item', rfl, hitem⟩
    · intro c d h
      exact .next_bind h (fun _ => Reading.failBack_ne_ok _ _) fun _ _ _ _ _ => .failBack

end

/-- What the sign of a look-behind starts is carried over. -/
theorem readLookBehind :
    Carries site (openingAt site) Pattern.readLookBehind Pattern.readLookBehind := by
  intro c d h
  refine .next_bind h (fun _ => Reading.failBack_ne_ok _ _) fun token c₁ d₁ _ h₁ => ?_
  split
  · rename_i heq
    cases heq
  · exact .pure h₁ rfl
  · exact .pure h₁ rfl
  · exact .failBack

/-- What a parenthesis opens, if that is not options for the whole pattern. -/
theorem readOpening {start start' : Nat} {c d : Cursor} (h : Follows site c d)
    (hfree : site.refers = true ∨ opensReference c.rest = false) {opening : Opening}
    (hopening : opening ≠ .wholeFlags ∨ opensFlags c.rest = false) {c' : Cursor}
    (hread : Pattern.readOpening start c = .ok (opening, c')) :
    CarriedTo site (openingAt site) c d (Pattern.readOpening start') opening c' := by
  unfold Pattern.readOpening at hread ⊢
  obtain ⟨question, c₁, haccept, hread⟩ := Reading.bind_eq_ok.1 hread
  refine (accept (by decide) h _ _ haccept).bind_same fun d₁ _ h₁ => ?_
  cases question with
  | false => exact CarriesAt.pure h₁ rfl _ _ hread
  | true =>
    have hrest : c.rest = '?' :: c₁.rest := Reading.accept_true haccept
    refine CarriesAt.next_bind_outcome h₁ hread (fun _ => Reading.failBack_ne_ok _ _ _)
      fun token c₂ d₂ hpast h₂ hread => ?_
    have hrefers : ∀ ch, (ch == 'P' || ch == '(') = true → token = .char ch → site.refers = true := by
      intro ch hch htoken
      refine hfree.resolve_right ?_
      have htaken := Reading.eq_cons_of_firstToken? (htoken ▸ hpast.token_eq)
      rw [hrest, htaken, opensReference, hch]
      simp
    have hcarries : ∀ {r r' : Reading Opening}, r c₂ = .ok (opening, c') →
        Carries site (openingAt site) r r' →
        CarriedTo site (openingAt site) c₂ d₂ r' opening c' :=
      fun hread hr => hr h₂ _ _ hread
    generalize htoken : some token = t at hread ⊢
    revert hread
    split <;> intro hread
    · cases htoken
    · exact hcarries hread (readNamedOpening (hrefers 'P' rfl (Option.some.inj htoken)))
    · exact hcarries hread (pure fun _ => rfl)
    · have hcomment : Carries site (openingAt site)
          (do Pattern.skipComment start ((← get).rest.length + 1); return .nothing)
          (do Pattern.skipComment start' ((← get).rest.length + 1); return .nothing) := by
        intro c d h
        refine .get_bind ((skipComment ?_).bind_same (fun _ => pure fun _ => rfl) h)
        rw [h.rest_eq, List.length_append]
        omega
      exact hcarries hread hcomment
    · exact hcarries hread (pure fun _ => rfl)
    · exact hcarries hread (pure fun _ => rfl)
    · exact hcarries hread readLookBehind
    · exact hcarries hread (pure fun _ => ⟨rfl, hrefers '(' rfl (Option.some.inj htoken)⟩)
    · exact hcarries hread (pure fun _ => rfl)
    · cases htoken
      split at hread
      · rename_i hletter
        rw [if_pos hletter]
        obtain ⟨given, c₃, hflags, hread⟩ := Reading.bind_eq_ok.1 hread
        cases given with
        | none =>
          cases hread
          have hclosed := hopening.resolve_left fun hwhole => hwhole rfl
          rw [hrest, opensFlags_cons hpast.token_eq hletter] at hclosed
          cases hclosed
        | some given =>
          exact (readFlags _ h₂ hflags).bind_same fun d₃ _ h₃ => CarriesAt.pure h₃ rfl _ _ hread
      · exact absurd hread (Reading.failBack_ne_ok _ _ _)

end Carries

end BinaryStrings.Pattern

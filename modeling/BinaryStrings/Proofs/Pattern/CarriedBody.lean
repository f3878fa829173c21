import BinaryStrings.Proofs.Pattern.CarriedParser

/-!
# Bodies at another place

Items, alternatives and groups are read by three readers that call each other.  All three are carried
over, by one induction on the fuel.  A body is read with the options of a group, so the outermost reader
may only do the same where these are plain.

Main results:

- Theorem `carried`: what is read as a body is also read at another place.
-/

namespace BinaryStrings.Pattern

open Cursor (Follows IsPast)

namespace Carries

variable {site : Site}

/-! ## Closing parentheses -/

/-- A character that is there. -/
theorem accept_of_true {ch : Char} {c d c' : Cursor} (h : Follows site c d)
    (hread : Reading.accept ch c = .ok (true, c')) :
    CarriedTo site same c d (Reading.accept ch) true c' := by
  unfold Reading.accept at hread ⊢
  refine CarriesAt.peek_bind_outcome h hread (fun _ _ _ hread => ?_) fun token htoken hread => ?_
  · cases hread
  · split at hread
    · rw [if_pos ‹_›]
      refine CarriesAt.next_bind_outcome h hread (fun hnil => ?_) fun _ c₁ d₁ _ h₁ hread => ?_
      · rw [hnil] at htoken
        cases htoken
      · exact CarriesAt.pure h₁ rfl _ _ hread
    · cases hread

theorem closing (start start' : Nat) :
    Carries site same (Pattern.closing start) (Pattern.closing start') := by
  intro c d h _ c' hread
  obtain ⟨found, c₁, haccept, hread⟩ := Reading.bind_eq_ok.1 hread
  cases found with
  | false => exact absurd hread (Reading.failAt_ne_ok _ _ _)
  | true =>
    exact (accept_of_true h haccept).bind_same fun d₁ _ h₁ => CarriesAt.pure h₁ rfl _ _ hread

end Carries

/-- A parenthesis stands behind what is closed. -/
theorem rest_ne_nil_of_closing {start : Nat} {c : Cursor} {x : Unit × Cursor}
    (h : closing start c = .ok x) : c.rest ≠ [] := by
  obtain ⟨found, c₁, haccept, hdone⟩ := Reading.bind_eq_ok.1 h
  cases found with
  | false => exact absurd hdone (Reading.failAt_ne_ok _ _ _)
  | true =>
    rw [Reading.accept_true haccept]
    exact List.cons_ne_nil _ _

/-- A call that may be made. -/
theorem enter_bind {α : Type} (left : Nat) (k : Nat → Reading α) : enter (left + 1) >>= k = k left :=
  rfl

theorem enter_bind_eq_ok {α : Type} {calls : Nat} {k : Nat → Reading α} {c : Cursor} {x : α × Cursor} :
    (enter calls >>= k) c = .ok x ↔ ∃ left, calls = left + 1 ∧ k left c = .ok x := by
  cases calls with
  | zero => exact iff_of_false nofun nofun
  | succ left => simp [enter_bind]

/-- No item is read from the end of a text. -/
theorem readItems_of_nil {fuel calls : Nat} {verbose first : Bool} {read : List Tree} {c c' : Cursor}
    {tree : Tree} (hnil : c.rest = [])
    (h : readItems fuel calls verbose first read c = .ok (tree, c')) : c' = c := by
  cases fuel with
  | zero => exact absurd h (Reading.failBack_ne_ok _ _ _)
  | succ fuel =>
    rw [readItems] at h
    obtain ⟨left, -, h⟩ := enter_bind_eq_ok.1 h
    rw [Reading.get_bind_run] at h
    rw [Reading.bind_of_ok (Reading.peek_run c), hnil] at h
    cases h
    rfl

/-! ## Alternatives, items and groups -/

/-- What was read with some fuel and calls can be read with these: there is as much fuel, and there are as
many calls or more than the fuel that was there lasted for. -/
structure Suffices (fuel calls fuel' calls' : Nat) : Prop where
  fuel_le : fuel ≤ fuel'
  calls_le : min fuel calls ≤ calls'

namespace Suffices

variable {fuel fuel' calls calls' left : Nat}

theorem of_le (hfuel : fuel ≤ fuel') (hcalls : calls ≤ calls') : Suffices fuel calls fuel' calls' :=
  ⟨hfuel, Nat.le_trans (Nat.min_le_right _ _) hcalls⟩

theorem step (h : Suffices (fuel + 1) calls fuel' calls') :
    ∃ less, fuel' = less + 1 ∧ Suffices fuel calls less calls' := by
  have hfuel := h.fuel_le
  have hcalls := h.calls_le
  exact ⟨fuel' - 1, by omega, by omega, by omega⟩

theorem enter (h : Suffices (fuel + 1) (left + 1) (fuel' + 1) calls') :
    ∃ left', calls' = left' + 1 ∧ Suffices fuel left fuel' left' := by
  have hfuel := h.fuel_le
  have hcalls := h.calls_le
  exact ⟨calls' - 1, by omega, by omega, by omega⟩

end Suffices

section

variable (site : Site) (fuel : Nat)

/-- The items that are read with this fuel are also read at the site.  Where comments up to the end of
the line are skipped, that needs something behind them. -/
def ItemsCarried : Prop :=
  ∀ ⦃fuel' calls calls' : Nat⦄ ⦃verbose first first' : Bool⦄ ⦃read read' : List Tree⦄
    ⦃c d : Cursor⦄ ⦃tree : Tree⦄ ⦃c' : Cursor⦄, Suffices fuel calls fuel' calls' →
    (first = true → site.inner = false) → Follows site c d → treesAt site read read' c.groups →
    readItems fuel calls verbose first read c = .ok (tree, c') → verbose = false ∨ c'.rest ≠ [] →
    CarriedTo site (treeAt site) c d (readItems fuel' calls' verbose first' read') tree c'

/-- The alternatives that are read with this fuel are also read at the site. -/
def AlternativesCarried : Prop :=
  ∀ ⦃fuel' calls calls' : Nat⦄ ⦃verbose outermost outermost' : Bool⦄ ⦃read read' : List Tree⦄
    ⦃c d : Cursor⦄ ⦃tree : Tree⦄ ⦃c' : Cursor⦄, Suffices fuel calls fuel' calls' →
    (outermost = true → verbose = false ∧ site.inner = false) →
    (outermost' = true → verbose = false ∧ site.flags.verbose = false) →
    Follows site c d → treesAt site read read' c.groups →
    readAlternatives fuel calls verbose outermost read c = .ok (tree, c') →
    verbose = false ∨ c'.rest ≠ [] →
    CarriedTo site (treeAt site) c d (readAlternatives fuel' calls' verbose outermost' read') tree c'

/-- The groups that are read with this fuel are also read at the site. -/
def GroupsCarried : Prop :=
  ∀ ⦃fuel' calls calls' : Nat⦄ ⦃verbose : Bool⦄ ⦃start start' : Nat⦄ ⦃opening opening' : Opening⦄
    ⦃c d : Cursor⦄ ⦃tree : Tree⦄ ⦃c' : Cursor⦄, Suffices fuel calls fuel' calls' →
    Follows site c d → openingAt site opening opening' c.groups →
    readGroup fuel calls verbose start opening c = .ok (tree, c') →
    CarriedTo site (treeAt site) c d (readGroup fuel' calls' verbose start' opening') tree c'

end

variable {site : Site} {fuel : Nat}

/-- What is read from behind the first character of an item. -/
def readItemsFrom (fuel calls left : Nat) (verbose first : Bool) (read : List Tree) (start : Nat)
    (c : Char) : Reading Tree := do
  if verbose && isPatternBlank c then readItems fuel calls verbose first read
  else if verbose && c == '#' then
    skipLine ((← get).rest.length + 1)
    readItems fuel calls verbose first read
  else if c == '[' then readItems fuel calls verbose first ((← readClass start) :: read)
  else if c == '*' || c == '+' || c == '?' || c == '{' then
    match ← quantifier c with
    | none => readItems fuel calls verbose first (.point c.toNat :: read)
    | some counts =>
      readItems fuel calls verbose first ((← repeatItem start counts read.head?) :: read.drop 1)
  else if c == '.' then readItems fuel calls verbose first (.anyChar :: read)
  else if c == '^' then readItems fuel calls verbose first (.anchor .lineStart :: read)
  else if c == '$' then readItems fuel calls verbose first (.anchor .lineEnd :: read)
  else if c == '(' then
    match ← readOpening start with
    | .nothing => readItems fuel calls verbose first read
    | .wholeFlags =>
      if first && read.isEmpty then readItems fuel calls (← get).flags.verbose first read
      else Reading.failAt .flagsNotAtStart start
    | .reference item => readItems fuel calls verbose first (item :: read)
    | opening => readItems fuel calls verbose first ((← readGroup fuel left verbose start opening) :: read)
  else readItems fuel calls verbose first (.point c.toNat :: read)

theorem readItems_succ (fuel calls : Nat) (verbose first : Bool) (read : List Tree) :
    readItems (fuel + 1) calls verbose first read = (do
      let left ← enter calls
      let start := (← get).position
      match ← Reading.peek with
      | none => return .ofItems read.reverse
      | some (.escape c) =>
        let _ ← Reading.next
        readItems fuel calls verbose first ((← escapeOutside c) :: read)
      | some (.char c) =>
        if c == '|' || c == ')' then return .ofItems read.reverse
        else
          let _ ← Reading.next
          readItemsFrom fuel calls left verbose first read start c) := by
  rw [readItems]
  rfl

namespace ItemsCarried

variable {fuel' calls calls' left left' : Nat} {verbose first first' : Bool} {read read' : List Tree}
  {c d c' : Cursor} {tree : Tree}

/-- One more item was read. -/
theorem add (hitems : ItemsCarried site fuel) (hfuel : Suffices fuel calls fuel' calls')
    (hfirst : first = true → site.inner = false) (hend : verbose = false ∨ c'.rest ≠ [])
    (h : Follows site c d) {n : Nat}
    (hread : treesAt site read read' n) (hn : n ≤ c.groups) {item item' : Tree}
    (hitem : treeAt site item item' c.groups)
    (hrun : readItems fuel calls verbose first (item :: read) c = .ok (tree, c')) :
    CarriedTo site (treeAt site) c d (readItems fuel' calls' verbose first' (item' :: read')) tree c' :=
  hitems hfuel hfirst h ((hread.mono hn).cons hitem) hrun hend

/-- A comment ends within the text if there is something behind the items. -/
theorem skip (hitems : ItemsCarried site fuel) (hfuel : Suffices fuel calls fuel' calls')
    (hfirst : first = true → site.inner = false) (hend : c'.rest ≠ []) (h : Follows site c d)
    (hread : treesAt site read read' c.groups)
    (hrun : (do
      skipLine ((← get).rest.length + 1)
      readItems fuel calls verbose first read : Reading Tree) c = .ok (tree, c')) :
    CarriedTo site (treeAt site) c d (do
      skipLine ((← get).rest.length + 1)
      readItems fuel' calls' verbose first' read') tree c' := by
  refine CarriesAt.get_bind_outcome hrun fun hrun => ?_
  obtain ⟨_, c₁, hskip, hrun⟩ := Reading.bind_eq_ok.1 hrun
  have hrest : c₁.rest ≠ [] := by
    intro hnil
    rw [readItems_of_nil hnil hrun] at hend
    exact hend hnil
  have hlonger : c.rest.length + 1 ≤ d.rest.length + 1 := by
    rw [h.rest_eq, List.length_append]
    omega
  exact (Carries.skipLine h (Nat.lt_succ_self _) hlonger hskip hrest).bind_same fun d₁ hg₁ h₁ =>
    hitems hfuel hfirst h₁ (hread.mono hg₁) hrun (.inr hend)

/-- A quantifier belongs to the item before it, or is a character. -/
theorem quantify (hitems : ItemsCarried site fuel) (hfuel : Suffices fuel calls fuel' calls')
    (hfirst : first = true → site.inner = false) (hend : verbose = false ∨ c'.rest ≠ [])
    (h : Follows site c d) (hread : treesAt site read read' c.groups) {start start' : Nat} {ch : Char}
    (hrun : (do
      match ← quantifier ch with
      | none => readItems fuel calls verbose first (.point ch.toNat :: read)
      | some counts =>
        readItems fuel calls verbose first ((← repeatItem start counts read.head?) :: read.drop 1) :
        Reading Tree) c = .ok (tree, c')) :
    CarriedTo site (treeAt site) c d (do
      match ← quantifier ch with
      | none => readItems fuel' calls' verbose first' (.point ch.toNat :: read')
      | some counts =>
        readItems fuel' calls' verbose first' ((← repeatItem start' counts read'.head?) :: read'.drop 1))
      tree c' := by
  refine CarriesAt.bind_same_outcome hrun (Carries.quantifier ch h) fun counts c₁ d₁ hg₁ h₁ hrun => ?_
  cases counts with
  | none =>
    have hpoint : treeAt site (.point ch.toNat) (.point ch.toNat) c₁.groups := ⟨trivial, rfl⟩
    exact hitems.add hfuel hfirst hend h₁ hread hg₁ hpoint hrun
  | some counts =>
    exact CarriesAt.bind_outcome hrun (Carries.repeatItem counts h₁ (hread.mono hg₁))
      fun item item' c₂ d₂ hg₂ hitem h₂ hrun =>
        hitems.add hfuel hfirst hend h₂ (hread.drop 1) (Nat.le_trans hg₁ hg₂) hitem hrun

/-- A parenthesis opens a group, or something that is no group. -/
theorem opened (hitems : ItemsCarried site fuel) (hgroups : GroupsCarried site fuel)
    (hfuel : Suffices fuel calls fuel' calls') (hleft : Suffices fuel left fuel' left')
    (hfirst : first = true → site.inner = false)
    (hend : verbose = false ∨ c'.rest ≠ []) (h : Follows site c d)
    (hfree : site.refers = true ∨ opensReference c.rest = false)
    (hflags : site.inner = true ∨ opensFlags c.rest = false)
    (hread : treesAt site read read' c.groups) {start start' : Nat}
    (hrun : (do
      match ← readOpening start with
      | .nothing => readItems fuel calls verbose first read
      | .wholeFlags =>
        if first && read.isEmpty then readItems fuel calls (← get).flags.verbose first read
        else Reading.failAt .flagsNotAtStart start
      | .reference item => readItems fuel calls verbose first (item :: read)
      | opening =>
        readItems fuel calls verbose first ((← readGroup fuel left verbose start opening) :: read) :
        Reading Tree) c = .ok (tree, c')) :
    CarriedTo site (treeAt site) c d (do
      match ← readOpening start' with
      | .nothing => readItems fuel' calls' verbose first' read'
      | .wholeFlags =>
        if first' && read'.isEmpty then readItems fuel' calls' (← get).flags.verbose first' read'
        else Reading.failAt .flagsNotAtStart start'
      | .reference item => readItems fuel' calls' verbose first' (item :: read')
      | opening =>
        readItems fuel' calls' verbose first' ((← readGroup fuel' left' verbose start' opening) :: read'))
      tree c' := by
  obtain ⟨opening, c₁, hopening, hrun⟩ := Reading.bind_eq_ok.1 hrun
  have hwhole : opening ≠ .wholeFlags ∨ opensFlags c.rest = false := by
    refine hflags.imp_left fun hinner hwhole => ?_
    have hlater : first = false := by
      cases first with
      | false => rfl
      | true => rw [hinner] at hfirst; cases hfirst rfl
    subst hwhole hlater
    exact Reading.failAt_ne_ok _ _ _ hrun
  refine (Carries.readOpening h hfree hwhole hopening).bind fun opening' d₁ hg₁ hopened h₁ => ?_
  have hgroup : (readGroup fuel left verbose start opening >>= fun item =>
        readItems fuel calls verbose first (item :: read)) c₁ = .ok (tree, c') →
      CarriedTo site (treeAt site) c₁ d₁ (readGroup fuel' left' verbose start' opening' >>=
        fun item => readItems fuel' calls' verbose first' (item :: read')) tree c' := by
    intro hrun
    obtain ⟨item, c₂, hitem, hrun⟩ := Reading.bind_eq_ok.1 hrun
    exact (hgroups hleft h₁ hopened hitem).bind fun item' d₂ hg₂ hitem h₂ =>
      hitems.add hfuel hfirst hend h₂ hread (Nat.le_trans hg₁ hg₂) hitem hrun
  cases opening with
  | nothing =>
    cases hopened
    exact hitems hfuel hfirst h₁ (hread.mono hg₁) hrun hend
  | wholeFlags => exact hopened.elim
  | reference item =>
    obtain ⟨item', rfl, hitem⟩ := hopened
    exact hitems.add hfuel hfirst hend h₁ hread hg₁ hitem hrun
  | capture name =>
    cases name with
    | none =>
      cases hopened
      exact hgroup hrun
    | some name =>
      obtain ⟨rfl, -⟩ := hopened
      exact hgroup hrun
  | plain on off =>
    cases hopened
    exact hgroup hrun
  | atomic =>
    cases hopened
    exact hgroup hrun
  | look behind negated =>
    cases hopened
    exact hgroup hrun
  | conditional =>
    obtain ⟨rfl, -⟩ := hopened
    exact hgroup hrun

theorem from_char (hitems : ItemsCarried site fuel) (hgroups : GroupsCarried site fuel)
    (hfuel : Suffices fuel calls fuel' calls') (hleft : Suffices fuel left fuel' left')
    (hfirst : first = true → site.inner = false)
    (hend : verbose = false ∨ c'.rest ≠ []) (h : Follows site c d) {ch : Char}
    (hfree : ch = '(' → site.refers = true ∨ opensReference c.rest = false)
    (hflags : ch = '(' → site.inner = true ∨ opensFlags c.rest = false)
    (hread : treesAt site read read' c.groups) {start start' : Nat}
    (hrun : readItemsFrom fuel calls left verbose first read start ch c = .ok (tree, c')) :
    CarriedTo site (treeAt site) c d (readItemsFrom fuel' calls' left' verbose first' read' start' ch) tree
      c' := by
  have hleaf : ∀ {item : Tree}, treeAt site item item c.groups →
      readItems fuel calls verbose first (item :: read) c = .ok (tree, c') →
      CarriedTo site (treeAt site) c d (readItems fuel' calls' verbose first' (item :: read')) tree c' :=
    hitems.add hfuel hfirst hend h hread (Nat.le_refl _)
  unfold readItemsFrom at hrun ⊢
  by_cases hblank : (verbose && isPatternBlank ch) = true
  · rw [if_pos hblank] at hrun ⊢
    exact hitems hfuel hfirst h hread hrun hend
  rw [if_neg hblank] at hrun ⊢
  by_cases hcomment : (verbose && ch == '#') = true
  · rw [if_pos hcomment] at hrun ⊢
    have hverbose : verbose ≠ false := by
      rintro rfl
      cases hcomment
    exact hitems.skip hfuel hfirst (hend.resolve_left hverbose) h hread hrun
  rw [if_neg hcomment] at hrun ⊢
  by_cases hclass : (ch == '[') = true
  · rw [if_pos hclass] at hrun ⊢
    exact CarriesAt.bind_outcome hrun (Carries.readClass _ _ h)
      fun item item' c₁ d₁ hg₁ hitem h₁ hrun => hitems.add hfuel hfirst hend h₁ hread hg₁ hitem hrun
  rw [if_neg hclass] at hrun ⊢
  by_cases hrepeat : (ch == '*' || ch == '+' || ch == '?' || ch == '{') = true
  · rw [if_pos hrepeat] at hrun ⊢
    exact hitems.quantify hfuel hfirst hend h hread hrun
  rw [if_neg hrepeat] at hrun ⊢
  by_cases hany : (ch == '.') = true
  · rw [if_pos hany] at hrun ⊢
    exact hleaf ⟨trivial, rfl⟩ hrun
  rw [if_neg hany] at hrun ⊢
  by_cases hstart : (ch == '^') = true
  · rw [if_pos hstart] at hrun ⊢
    exact hleaf ⟨trivial, rfl⟩ hrun
  rw [if_neg hstart] at hrun ⊢
  by_cases hstop : (ch == '$') = true
  · rw [if_pos hstop] at hrun ⊢
    exact hleaf ⟨trivial, rfl⟩ hrun
  rw [if_neg hstop] at hrun ⊢
  by_cases hopen : (ch == '(') = true
  · rw [if_pos hopen] at hrun ⊢
    have hparenthesis : ch = '(' := by simpa using hopen
    exact hitems.opened hgroups hfuel hleft hfirst hend h (hfree hparenthesis) (hflags hparenthesis) hread
      hrun
  · rw [if_neg hopen] at hrun ⊢
    exact hleaf ⟨trivial, rfl⟩ hrun

theorem succ (hitems : ItemsCarried site fuel) (hgroups : GroupsCarried site fuel) :
    ItemsCarried site (fuel + 1) := by
  intro fuel' calls calls' verbose first first' read read' c d tree c' hfuel hfirst h hread hrun hend
  obtain ⟨fuel', rfl, hstep⟩ := hfuel.step
  have hdone : (pure (Tree.ofItems read.reverse) : Reading Tree) c = .ok (tree, c') →
      CarriedTo site (treeAt site) c d (pure (.ofItems read'.reverse)) tree c' :=
    CarriesAt.pure h hread.reverse.ofItems _ _
  rw [readItems_succ] at hrun ⊢
  obtain ⟨left, rfl, hrun⟩ := enter_bind_eq_ok.1 hrun
  obtain ⟨left', rfl, hleft⟩ := hfuel.enter
  rw [enter_bind]
  refine CarriesAt.get_bind_outcome hrun fun hrun => ?_
  refine CarriesAt.peek_bind_outcome h hrun (fun _ t ht hrun => ?_) fun token htoken hrun => ?_
  · rcases ht with rfl | rfl
    · exact hdone hrun
    · exact hdone hrun
  have hnil : c.rest ≠ [] := by
    intro hnil
    rw [hnil] at htoken
    cases htoken
  have hrefers : site.refers = true ∨ isFreeOfReferences c.rest = true := by
    cases hsite : site.refers with
    | true => exact .inl rfl
    | false => exact .inr (h.free hsite)
  have hinner : site.inner = true ∨ isFreeOfFlags c.rest = true := by
    cases hsite : site.inner with
    | true => exact .inl rfl
    | false => exact .inr (h.unflagged hsite)
  cases token with
  | escape ch =>
    have hescape : site.refers = true ∨ isReferenceDigit ch = false :=
      hrefers.imp_right fun hfree => not_escaped_of_isFreeOf hfree htoken
    refine CarriesAt.next_bind_outcome h hrun (fun hnil' => absurd hnil' hnil)
      fun _ c₁ d₁ hpast h₁ hrun => ?_
    refine CarriesAt.bind_outcome hrun (Carries.escapeOutside hescape h₁)
      fun item item' c₂ d₂ hg₂ hitem h₂ hrun => ?_
    rw [hpast.groups_eq] at hg₂
    exact hitems.add hstep hfirst hend h₂ hread hg₂ hitem hrun
  | char ch =>
    dsimp only at hrun ⊢
    by_cases hstop : (ch == '|' || ch == ')') = true
    · rw [if_pos hstop] at hrun ⊢
      exact hdone hrun
    rw [if_neg hstop] at hrun ⊢
    refine CarriesAt.next_bind_outcome h hrun (fun hnil' => absurd hnil' hnil)
      fun token c₁ d₁ hpast h₁ hrun => ?_
    obtain rfl : token = .char ch := Option.some.inj (hpast.token_eq.symm.trans htoken)
    have hrest : c.rest = ch :: c₁.rest := by
      rw [hpast.rest_eq]
      exact Reading.eq_cons_of_firstToken? htoken
    have hopens : ch = '(' → site.refers = true ∨ opensReference c₁.rest = false := by
      rintro rfl
      rw [hrest] at hrefers
      exact hrefers.imp_right not_opened_of_isFreeOf
    have hflags : ch = '(' → site.inner = true ∨ opensFlags c₁.rest = false := by
      rintro rfl
      rw [hrest] at hinner
      exact hinner.imp_right not_opened_of_isFreeOf
    rw [← hpast.groups_eq] at hread
    exact hitems.from_char hgroups hstep hleft hfirst hend h₁ hopens hflags hread hrun

end ItemsCarried

theorem AlternativesCarried.succ (hitems : ItemsCarried site fuel)
    (halternatives : AlternativesCarried site fuel) : AlternativesCarried site (fuel + 1) := by
  intro fuel' calls calls' verbose outermost outermost' read read' c d tree c' hfuel houter houter' h
    hread hrun hend
  obtain ⟨fuel', rfl, hstep⟩ := hfuel.step
  rw [readAlternatives] at hrun ⊢
  obtain ⟨left, rfl, hrun⟩ := enter_bind_eq_ok.1 hrun
  obtain ⟨left', rfl, hleft⟩ := hfuel.enter
  rw [enter_bind]
  obtain ⟨item, c₁, hitem, hrun⟩ := Reading.bind_eq_ok.1 hrun
  obtain ⟨found, c₂, haccept, hrun⟩ := Reading.bind_eq_ok.1 hrun
  have hend₁ : verbose = false ∨ c₁.rest ≠ [] := by
    cases found with
    | true =>
      rw [Reading.accept_true haccept]
      exact .inr (List.cons_ne_nil _ _)
    | false =>
      cases hrun
      rwa [Reading.accept_false haccept] at hend
  have hfirst : (outermost && read.isEmpty) = true → site.inner = false := fun hfirst =>
    (houter (Bool.and_eq_true_iff.1 hfirst).1).2
  refine (hitems hleft hfirst h treesAt_nil hitem hend₁).bind fun item' d₁ hg₁ hitem₁ h₁ => ?_
  refine (Carries.accept (by decide) h₁ _ _ haccept).bind_same fun d₂ hg₂ h₂ => ?_
  have hread₂ : treesAt site (item :: read) (item' :: read') c₂.groups :=
    (hread.mono (Nat.le_trans hg₁ hg₂)).cons (hitem₁.mono hg₂)
  cases found with
  | true =>
    have hverbose : (if outermost = true then c₂.flags.verbose else verbose) = verbose := by
      split
      · rw [h₂.verbose_eq (houter ‹_›).2, (houter ‹_›).1]
      · rfl
    have hverbose' : (if outermost' = true then d₂.flags.verbose else verbose) = verbose := by
      split
      · rw [h₂.flags_eq, (houter' ‹_›).1, (houter' ‹_›).2]
      · rfl
    refine CarriesAt.get_bind_outcome hrun fun hrun => ?_
    dsimp only at hrun ⊢
    rw [hverbose] at hrun
    rw [hverbose']
    exact halternatives hstep houter houter' h₂ hread₂ hrun hend
  | false => exact CarriesAt.pure h₂ hread₂.reverse.alternatives _ _ hrun

/-- The body of a group ends at its closing parenthesis. -/
theorem AlternativesCarried.closed (halternatives : AlternativesCarried site fuel)
    {fuel' calls calls' : Nat}
    (hfuel : Suffices fuel calls fuel' calls') {verbose : Bool} {start start' : Nat} {c d c' : Cursor}
    (h : Follows site c d) {tree : Tree} {k k' : Tree → Reading Tree}
    (hrun : (do
      let body ← readAlternatives fuel calls verbose false []
      closing start
      k body : Reading Tree) c = .ok (tree, c'))
    (hk : ∀ body body' c₁ d₁, c.groups ≤ c₁.groups → treeAt site body body' c₁.groups →
      Follows site c₁ d₁ → k body c₁ = .ok (tree, c') →
      CarriedTo site (treeAt site) c₁ d₁ (k' body') tree c') :
    CarriedTo site (treeAt site) c d (do
      let body ← readAlternatives fuel' calls' verbose false []
      closing start'
      k' body) tree c' := by
  obtain ⟨body, c₁, hbody, hrun⟩ := Reading.bind_eq_ok.1 hrun
  obtain ⟨_, c₂, hclose, hrun⟩ := Reading.bind_eq_ok.1 hrun
  have hrest := rest_ne_nil_of_closing hclose
  refine (halternatives hfuel (by simp) (by simp) h treesAt_nil hbody (.inr hrest)).bind
    fun body' d₁ hg₁ hbody₁ h₁ => ?_
  exact (Carries.closing start start' h₁ _ _ hclose).bind_same fun d₂ hg₂ h₂ =>
    hk body body' c₂ d₂ (Nat.le_trans hg₁ hg₂) (hbody₁.mono hg₂) h₂ hrun

/-- The body of a look-around, behind which `outer` holds again. -/
def readLook (fuel calls : Nat) (verbose : Bool) (start : Nat) (outer : Option Nat)
    (behind negated : Bool) : Reading Tree := do
  let body ← readAlternatives fuel calls verbose false []
  modify fun cursor => { cursor with groupsBefore := outer }
  closing start
  return .look behind negated body

theorem readGroup_look (fuel calls : Nat) (verbose : Bool) (start : Nat) (behind negated : Bool) :
    readGroup (fuel + 1) calls verbose start (.look behind negated) = (do
      let outer := (← get).groupsBefore
      if behind && outer.isNone then
        modify fun cursor => { cursor with groupsBefore := some cursor.groups }
        readLook fuel calls verbose start outer behind negated
      else readLook fuel calls verbose start outer behind negated) := by
  rw [readGroup]
  rfl

/-- Groups before a look-behind are noted in both places. -/
theorem Cursor.Follows.setGroupsBefore {c d : Cursor} (h : Follows site c d) (before : Option Nat) :
    Follows site { c with groupsBefore := before }
      { d with groupsBefore := before.map (· + site.before) } :=
  { h with
    groupsBefore_eq := rfl
    numbered := h.numbered.move _ _ _ _ }

theorem AlternativesCarried.look (halternatives : AlternativesCarried site fuel) {fuel' calls calls' : Nat}
    (hfuel : Suffices fuel calls fuel' calls') {verbose : Bool} {start start' : Nat} {outer : Option Nat}
    {behind negated : Bool} {c d c' : Cursor} (h : Follows site c d) {tree : Tree}
    (hrun : readLook fuel calls verbose start outer behind negated c = .ok (tree, c')) :
    CarriedTo site (treeAt site) { c with groupsBefore := outer } d
      (readLook fuel' calls' verbose start' (outer.map (· + site.before)) behind negated) tree c' := by
  obtain ⟨body, c₁, hbody, hrun⟩ := Reading.bind_eq_ok.1 hrun
  obtain ⟨_, c₂, hset, hrun⟩ := Reading.bind_eq_ok.1 hrun
  obtain ⟨_, c₃, hclose, hdone⟩ := Reading.bind_eq_ok.1 hrun
  cases hset
  have hrest := rest_ne_nil_of_closing hclose
  obtain ⟨hg₁, -, body', d₁, hbody', hwithin, h₁⟩ :=
    halternatives hfuel (by simp) (fun ho : false = true => by cases ho) h treesAt_nil hbody
      (.inr hrest)
  obtain ⟨hg₂, hbefore, _, d₂, hclose', -, h₂⟩ :=
    Carries.closing start start' (h₁.setGroupsBefore outer) _ _ hclose
  cases hdone
  have htree : treeAt site (.look behind negated body) (.look behind negated body') c'.groups :=
    ⟨hwithin.1.mono hg₂, congrArg (Tree.look behind negated) hwithin.2⟩
  refine ⟨Nat.le_trans hg₁ hg₂, hbefore, _, d₂, ?_, htree, h₂⟩
  refine (Reading.bind_of_ok hbody').trans ?_
  change (closing start' >>= fun _ => pure (Tree.look behind negated body'))
    { d₁ with groupsBefore := outer.map (· + site.before) } = _
  rw [Reading.bind_of_ok hclose']
  rfl

/-- The end of a conditional. -/
theorem closeConditional (hrefers : site.refers = true) {start start' index : Nat}
    {yes yes' no no' : Tree} {c d : Cursor} (h : Follows site c d)
    (hyes : treeAt site yes yes' c.groups) (hno : treeAt site no no' c.groups) :
    CarriesAt site (treeAt site) c d
      (do closing start; return .conditional index yes no)
      (do closing start'; return .conditional index yes' no') := by
  refine (Carries.closing start start' h).bind_same fun _ _ _ hg₁ h₁ => .pure h₁ ?_
  refine ⟨⟨hyes.1.mono hg₁, hno.1.mono hg₁⟩, ?_⟩
  rw [hyes.2, hno.2, Tree.renumber, site.before_eq hrefers]
  rfl

/-- A conditional has one or two alternatives behind the number of its group. -/
theorem ItemsCarried.conditional (hitems : ItemsCarried site fuel) (hrefers : site.refers = true)
    {fuel' calls calls' : Nat} (hfuel : Suffices fuel calls fuel' calls') {verbose : Bool}
    {start start' : Nat} {c d c' : Cursor} (h : Follows site c d) {tree : Tree}
    (hrun : readGroup (fuel + 1) calls verbose start .conditional c = .ok (tree, c')) :
    CarriedTo site (treeAt site) c d (readGroup (fuel' + 1) calls' verbose start' .conditional) tree
      c' := by
  rw [readGroup] at hrun ⊢
  refine CarriesAt.bind_same_outcome hrun (Carries.readCondition hrefers h)
    fun index c₁ d₁ _ h₁ hrun => ?_
  refine CarriesAt.bind_same_outcome hrun (Carries.checkLookBehind hrefers index h₁)
    fun _ c₂ d₂ _ h₂ hrun => ?_
  obtain ⟨yes, c₃, hyes, hrun⟩ := Reading.bind_eq_ok.1 hrun
  obtain ⟨found, c₄, haccept, hrun⟩ := Reading.bind_eq_ok.1 hrun
  have hrest : c₃.rest ≠ [] := by
    cases found with
    | true =>
      rw [Reading.accept_true haccept]
      exact List.cons_ne_nil _ _
    | false =>
      obtain ⟨_, _, hempty, hrun⟩ := Reading.bind_eq_ok.1 hrun
      obtain ⟨_, _, hclose, _⟩ := Reading.bind_eq_ok.1 hrun
      cases hempty
      rw [← Reading.accept_false haccept]
      exact rest_ne_nil_of_closing hclose
  refine (hitems hfuel (by simp) h₂ treesAt_nil hyes (.inr hrest)).bind fun yes' d₃ _ hyes' h₃ => ?_
  refine (Carries.accept (by decide) h₃ _ _ haccept).bind_same fun d₄ hg₄ h₄ => ?_
  replace hyes' := hyes'.mono hg₄
  cases found with
  | false =>
    have hempty : treeAt site .empty .empty c₄.groups := ⟨trivial, rfl⟩
    exact closeConditional hrefers h₄ hyes' hempty _ _ hrun
  | true =>
    obtain ⟨no, c₅, hno, hrun⟩ := Reading.bind_eq_ok.1 hrun
    have hrest : c₅.rest ≠ [] := by
      intro hnil
      rw [Reading.bind_of_ok (Reading.peek_run c₅), hnil] at hrun
      obtain ⟨_, _, hno, hrun⟩ := Reading.bind_eq_ok.1 hrun
      obtain ⟨_, _, hclose, _⟩ := Reading.bind_eq_ok.1 hrun
      cases hno
      exact rest_ne_nil_of_closing hclose hnil
    refine (hitems hfuel (by simp) h₄ treesAt_nil hno (.inr hrest)).bind fun no' d₅ hg₅ hno' h₅ => ?_
    refine CarriesAt.peek_bind_outcome h₅ hrun (fun hnil => absurd hnil hrest)
      fun token _ hrun => ?_
    split at hrun
    · obtain ⟨_, _, hfail, _⟩ := Reading.bind_eq_ok.1 hrun
      exact absurd hfail (Reading.failBack_ne_ok _ _ _)
    · rw [if_neg ‹_›]
      exact closeConditional hrefers h₅ (hyes'.mono hg₅) hno' _ _ hrun

/-- A capturing group has the next number, in both places. -/
theorem AlternativesCarried.capture (halternatives : AlternativesCarried site fuel)
    {fuel' calls calls' : Nat} (hfuel : Suffices fuel calls fuel' calls') {verbose : Bool}
    {start start' : Nat} {name : Option (List Char)}
    (hname : name.isSome = true → site.refers = true) {c d c' : Cursor} (h : Follows site c d)
    {tree : Tree} (hrun : readGroup (fuel + 1) calls verbose start (.capture name) c = .ok (tree, c')) :
    CarriedTo site (treeAt site) c d (readGroup (fuel' + 1) calls' verbose start' (.capture name)) tree
      c' := by
  rw [readGroup] at hrun ⊢
  refine CarriesAt.bind_outcome hrun (Carries.openGroup hname h)
    fun index index' c₁ d₁ _ hindex h₁ hrun => ?_
  refine halternatives.closed hfuel h₁ hrun fun body body' c₂ d₂ hg₂ hbody h₂ hrun => ?_
  have hindex₂ : groupAt site index index' c₂.groups := ⟨hindex.1.mono hg₂, hindex.2⟩
  refine CarriesAt.bind_same_outcome hrun (Carries.closeGroup h₂ hindex₂)
    fun _ c₃ d₃ hg₃ h₃ hrun => ?_
  refine CarriesAt.pure h₃ ⟨⟨?_, hbody.1.mono hg₃⟩, ?_⟩ _ _ hrun
  · rintro _ ⟨⟩
    exact hindex₂.1.mono hg₃
  · rw [hbody.2, hindex.2]
    rfl

theorem GroupsCarried.succ (hitems : ItemsCarried site fuel)
    (halternatives : AlternativesCarried site fuel) : GroupsCarried site (fuel + 1) := by
  intro fuel' calls calls' verbose start start' opening opening' c d tree c' hfuel h hopening hrun
  obtain ⟨fuel', rfl, hstep⟩ := hfuel.step
  cases opening with
  | nothing =>
    cases hopening
    exact CarriesAt.pure h ⟨trivial, rfl⟩ _ _ hrun
  | wholeFlags => exact hopening.elim
  | reference item =>
    obtain ⟨item', rfl, hitem⟩ := hopening
    exact CarriesAt.pure h hitem _ _ hrun
  | capture name =>
    cases name with
    | none =>
      cases hopening
      exact halternatives.capture hstep (by simp) h hrun
    | some name =>
      obtain ⟨rfl, hrefers⟩ := hopening
      exact halternatives.capture hstep (fun _ => hrefers) h hrun
  | plain on off =>
    cases hopening
    rw [readGroup] at hrun ⊢
    refine halternatives.closed hstep h hrun fun body body' c₁ d₁ _ hbody h₁ hrun => ?_
    refine CarriesAt.pure h₁ ⟨⟨by simp, hbody.1⟩, ?_⟩ _ _ hrun
    rw [hbody.2]
    rfl
  | atomic =>
    cases hopening
    rw [readGroup] at hrun ⊢
    refine halternatives.closed hstep h hrun fun body body' c₁ d₁ _ hbody h₁ hrun => ?_
    exact CarriesAt.pure h₁ ⟨hbody.1, congrArg Tree.atomic hbody.2⟩ _ _ hrun
  | look behind negated =>
    cases hopening
    rw [readGroup_look] at hrun ⊢
    refine CarriesAt.get_bind_outcome hrun fun hrun => ?_
    dsimp only at hrun ⊢
    rw [h.groupsBefore_eq, Option.isNone_map]
    by_cases hfirst : (behind && c.groupsBefore.isNone) = true
    · rw [if_pos hfirst] at hrun ⊢
      obtain ⟨_, c₁, hset, hrun⟩ := Reading.bind_eq_ok.1 hrun
      cases hset
      have h₁ : Follows site { c with groupsBefore := some c.groups }
          { d with groupsBefore := some d.groups } :=
        { h.setGroupsBefore (some c.groups) with groupsBefore_eq := congrArg some h.groups_eq }
      exact halternatives.look hstep h₁ hrun
    · rw [if_neg hfirst] at hrun ⊢
      exact halternatives.look hstep h hrun
  | conditional =>
    obtain ⟨rfl, hrefers⟩ := hopening
    exact hitems.conditional hrefers hstep h hrun

/-- Alternatives, items and groups are carried over with any fuel. -/
theorem carried (site : Site) (fuel : Nat) :
    ItemsCarried site fuel ∧ AlternativesCarried site fuel ∧ GroupsCarried site fuel := by
  induction fuel with
  | zero =>
    refine ⟨?_, ?_, ?_⟩
    · intro _ _ _ _ _ _ _ _ _ _ _ _ _ _ _ _ hrun
      exact absurd hrun (Reading.failBack_ne_ok _ _ _)
    · intro _ _ _ _ _ _ _ _ _ _ _ _ _ _ _ _ _ hrun
      exact absurd hrun (Reading.failBack_ne_ok _ _ _)
    · intro _ _ _ _ _ _ _ _ _ _ _ _ _ _ _ hrun
      exact absurd hrun (Reading.failBack_ne_ok _ _ _)
  | succ fuel ih =>
    obtain ⟨hitems, halternatives, hgroups⟩ := ih
    exact ⟨hitems.succ hgroups, halternatives.succ hitems, GroupsCarried.succ hitems halternatives⟩

end BinaryStrings.Pattern

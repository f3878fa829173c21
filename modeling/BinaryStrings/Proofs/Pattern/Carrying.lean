import BinaryStrings.Proofs.Pattern.GroupNumbers
import BinaryStrings.Proofs.Pattern.Reading

/-!
# Reading at another place

A pattern may stand inside another one, as the body of a group.  What stands behind it is then a
closing parenthesis, positions, options and fuel are others, and there may be groups before it.  A
reader *carries over* to another one if whatever it reads from a text, the other one reads from the
same text at such a place, up to the numbers of groups.

References are made by numbers and names.  So a pattern with references only carries over to places
with no group before them; other patterns carry over to any place.  Options of the whole pattern have
to be at its start, so a pattern with them does not carry over at all.

Main results:

- Theorem `CarriedTo.bind`: readers are carried over step by step.
- Theorem `CarriesAt.next_bind_outcome`: the token that comes next is the same at the other place.
-/

namespace BinaryStrings.Pattern

/-! ## References and options -/

/-- Whether a text has neither escapes nor opening parentheses of some kind, by the escaped character
and by what is behind the parenthesis.  Where it seems to have some, as in a bracketed class, it may
yet have none. -/
def isFreeOf (escaped : Char → Bool) (opened : List Char → Bool) : List Char → Bool
  | '\\' :: c :: rest => !escaped c && isFreeOf escaped opened rest
  | c :: rest => !(c == '(' && opened rest) && isFreeOf escaped opened rest
  | [] => true

section FreeOf

open Reading (firstToken?)

variable {escaped : Char → Bool} {opened : List Char → Bool} {rest : List Char}

theorem isFreeOf_drop (h : isFreeOf escaped opened rest = true) {token : Token}
    (htoken : firstToken? rest = some token) :
    isFreeOf escaped opened (rest.drop token.length) = true := by
  unfold firstToken? at htoken
  split at htoken
  · cases htoken
  · cases htoken
    rw [isFreeOf, Bool.and_eq_true] at h
    exact h.2
  · rename_i hescape
    cases htoken
    rw [isFreeOf, Bool.and_eq_true] at h
    · exact h.2
    · exact hescape

theorem not_escaped_of_isFreeOf {c : Char} (h : isFreeOf escaped opened rest = true)
    (htoken : firstToken? rest = some (.escape c)) : escaped c = false := by
  unfold firstToken? at htoken
  split at htoken <;> cases htoken
  rw [isFreeOf, Bool.and_eq_true] at h
  simpa using h.1

theorem not_opened_of_isFreeOf (h : isFreeOf escaped opened ('(' :: rest) = true) :
    opened rest = false := by
  rw [isFreeOf, Bool.and_eq_true] at h
  · simpa using h.1
  · rintro _ _ ⟨⟩

end FreeOf

/-- Whether an escape may refer to a group. -/
def isReferenceDigit (c : Char) : Bool :=
  c.isDigit && c != '0'

/-- Whether a group is named, refers to a name or is conditional. -/
def opensReference : List Char → Bool
  | '?' :: c :: _ => c == 'P' || c == '('
  | _ => false

/-- Whether a text has no references to groups, no named groups and no conditionals. -/
def isFreeOfReferences : List Char → Bool :=
  isFreeOf isReferenceDigit opensReference

/-- Whether a parenthesis opens options, of a group or of the whole pattern. -/
def opensFlags : List Char → Bool
  | '?' :: c :: _ => c == '-' || c == 'L' || (flagOf? (.char c)).isSome
  | _ => false

/-- Whether a text has no options. -/
def isFreeOfFlags : List Char → Bool :=
  isFreeOf (fun _ => false) opensFlags

/-! ## Cursors -/

namespace Cursor

/-- What is known of groups has the number of a group. -/
structure IsNumbered (cursor : Cursor) : Prop where
  groups_pos : 0 < cursor.groups
  names : ∀ entry ∈ cursor.names, IsGroup entry.2 cursor.groups
  closed : ∀ index ∈ cursor.closed, IsGroup index cursor.groups

/-- A group is opened, and may be given a name. -/
theorem IsNumbered.addGroup {cursor : Cursor} (h : cursor.IsNumbered) {names : List (String × Nat)}
    (hnames : ∀ entry ∈ names, entry.2 = cursor.groups ∨ entry ∈ cursor.names) :
    IsNumbered { cursor with groups := cursor.groups + 1, names := names } where
  groups_pos := Nat.succ_pos _
  names := by
    intro entry hentry
    rcases hnames entry hentry with hnew | hold
    · rw [hnew]
      exact ⟨h.groups_pos, Nat.lt_succ_self _⟩
    · exact (h.names entry hold).mono (Nat.le_succ _)
  closed := fun index hindex => (h.closed index hindex).mono (Nat.le_succ _)

/-- Where the cursor stands does not matter, nor what it knows besides groups. -/
theorem IsNumbered.move {cursor : Cursor} (h : cursor.IsNumbered) (rest : List Char) (position : Nat)
    (groupsBefore : Option Nat) (conditions : List (Nat × Nat)) :
    IsNumbered { cursor with
      rest := rest
      position := position
      groupsBefore := groupsBefore
      conditions := conditions } :=
  ⟨h.groups_pos, h.names, h.closed⟩

/-- A token was taken. -/
structure IsPast (token : Token) (before cursor : Cursor) : Prop where
  token_eq : Reading.firstToken? before.rest = some token
  rest_eq : cursor.rest = before.rest.drop token.length
  groups_eq : cursor.groups = before.groups

theorem IsPast.length_lt {token : Token} {before cursor : Cursor} (h : IsPast token before cursor) :
    cursor.rest.length < before.rest.length := by
  have hlength := length_le_of_firstToken? h.token_eq
  have hpos := token.length_pos
  rw [h.rest_eq, List.length_drop]
  omega

end Cursor

/-! ## Places -/

/-- A place where a pattern is read again: the names of characters, what stands behind the pattern, the
options, how many groups were opened before it, and which groups conditions before it ask for. -/
structure Site where
  characters : Unicode.CharacterNames
  tail : List Char
  flags : Flags
  /-- The number of groups before. -/
  before : Nat
  /-- The groups that conditions before ask for. -/
  asked : List Nat
  /-- Whether the pattern may refer to groups. -/
  refers : Bool
  /-- Whether the pattern was the body of a group at first.  Otherwise it has no options. -/
  inner : Bool
  isTail : IsTail tail
  before_eq : refers = true → before = 0
  asked_eq : refers = true → asked = []

/-- Both cursors know the same of characters, options, groups and conditions, the second one at the
site. -/
structure Cursor.Agrees (site : Site) (c d : Cursor) : Prop where
  characters_eq : d.characters = site.characters
  characters_same : d.characters = c.characters
  flags_eq : d.flags = site.flags
  groups_eq : d.groups = c.groups + site.before
  names_eq : site.refers = true → d.names = c.names
  closed_eq : site.refers = true → d.closed = c.closed
  groupsBefore_eq : d.groupsBefore = c.groupsBefore.map (· + site.before)
  conditions_eq : d.conditions.map (·.1) = site.asked ++ c.conditions.map (·.1)
  verbose_eq : site.inner = false → c.flags.verbose = false
  numbered : c.IsNumbered

/-- The second cursor stands at the site where the first one stands in its text.  The text does not end
within an escape, and it has no references or options unless it may. -/
structure Cursor.Follows (site : Site) (c d : Cursor) : Prop extends Cursor.Agrees site c d where
  rest_eq : d.rest = c.rest ++ site.tail
  complete : c.rest ≠ ['\\']
  free : site.refers = false → isFreeOfReferences c.rest = true
  unflagged : site.inner = false → isFreeOfFlags c.rest = true

open Cursor (Follows IsPast)

/-! ## Results at a place -/

section Results

variable {site : Site}

/-- The same result. -/
def same {α : Type} (a a' : α) (_ : Nat) : Prop :=
  a' = a

/-- The number of a group, and its number at the site. -/
def groupAt (site : Site) (index index' groups : Nat) : Prop :=
  IsGroup index groups ∧ index' = index + site.before

/-- A pattern, and the pattern at the site. -/
def treeAt (site : Site) (tree tree' : Tree) (groups : Nat) : Prop :=
  tree.IsWithin groups ∧ tree' = tree.renumber (· + site.before)

theorem treeAt.mono {tree tree' : Tree} {n m : Nat} (h : treeAt site tree tree' n) (hnm : n ≤ m) :
    treeAt site tree tree' m :=
  ⟨h.1.mono hnm, h.2⟩

/-- With no group before it a pattern is itself. -/
theorem treeAt_self (hrefers : site.refers = true) {tree : Tree} {n : Nat} (h : tree.IsWithin n) :
    treeAt site tree tree n := by
  have hid : tree.renumber (· + 0) = tree := tree.renumber_id
  refine ⟨h, ?_⟩
  rw [site.before_eq hrefers, hid]

/-- Patterns, and these at the site. -/
def treesAt (site : Site) (trees trees' : List Tree) (groups : Nat) : Prop :=
  (∀ tree ∈ trees, tree.IsWithin groups) ∧ trees' = trees.map (Tree.renumber (· + site.before))

theorem treesAt_nil {n : Nat} : treesAt site [] [] n :=
  ⟨by simp, rfl⟩

theorem treesAt.mono {trees trees' : List Tree} {n m : Nat} (h : treesAt site trees trees' n)
    (hnm : n ≤ m) : treesAt site trees trees' m :=
  ⟨fun tree htree => (h.1 tree htree).mono hnm, h.2⟩

theorem treesAt.cons {tree tree' : Tree} {trees trees' : List Tree} {n : Nat}
    (h : treeAt site tree tree' n) (hs : treesAt site trees trees' n) :
    treesAt site (tree :: trees) (tree' :: trees') n :=
  ⟨List.forall_mem_cons.2 ⟨h.1, hs.1⟩, by rw [h.2, hs.2, List.map_cons]⟩

theorem treesAt.reverse {trees trees' : List Tree} {n : Nat} (h : treesAt site trees trees' n) :
    treesAt site trees.reverse trees'.reverse n :=
  ⟨fun tree htree => h.1 tree (List.mem_reverse.1 htree), by rw [h.2, List.map_reverse]⟩

theorem treesAt.drop {trees trees' : List Tree} {n : Nat} (h : treesAt site trees trees' n)
    (count : Nat) : treesAt site (trees.drop count) (trees'.drop count) n :=
  ⟨fun tree htree => h.1 tree (List.mem_of_mem_drop htree), by rw [h.2, List.map_drop]⟩

theorem treesAt.ofItems {trees trees' : List Tree} {n : Nat} (h : treesAt site trees trees' n) :
    treeAt site (.ofItems trees) (.ofItems trees') n :=
  ⟨Tree.refers_ofItems.2 h.1, by rw [Tree.renumber_ofItems, h.2]⟩

theorem treesAt.alternatives {trees trees' : List Tree} {n : Nat} (h : treesAt site trees trees' n) :
    treeAt site (Pattern.alternatives trees) (Pattern.alternatives trees') n :=
  ⟨Tree.refers_alternativesOf h.1, by rw [Tree.renumber_alternativesOf, h.2]⟩

end Results

/-! ## Carrying over -/

/-- What was read between two cursors is also read from another one, up to a place that follows.
Groups are only added, and behind a look-behind it is over.  The two results are related, which may
depend on the number of groups. -/
def CarriedTo {α : Type} (site : Site) (Q : α → α → Nat → Prop) (c d : Cursor) (r' : Reading α)
    (a : α) (c' : Cursor) : Prop :=
  c.groups ≤ c'.groups ∧ c'.groupsBefore = c.groupsBefore ∧
    ∃ a' d', r' d = .ok (a', d') ∧ Q a a' c'.groups ∧ Follows site c' d'

/-- Whatever the first reader reads from the first cursor, the second one reads from the second
cursor. -/
def CarriesAt {α : Type} (site : Site) (Q : α → α → Nat → Prop) (c d : Cursor)
    (r r' : Reading α) : Prop :=
  ∀ a c', r c = .ok (a, c') → CarriedTo site Q c d r' a c'

/-- The first reader is carried over to the second one from everywhere. -/
def Carries {α : Type} (site : Site) (Q : α → α → Nat → Prop) (r r' : Reading α) : Prop :=
  ∀ ⦃c d⦄, Follows site c d → CarriesAt site Q c d r r'

namespace CarriedTo

variable {α β : Type} {site : Site} {Q : α → α → Nat → Prop} {R : β → β → Nat → Prop} {c d : Cursor}
  {r' : Reading α} {k' : α → Reading β} {a : α} {b : β} {c₁ c' : Cursor}

/-- Readers are carried over step by step. -/
theorem bind (h : CarriedTo site Q c d r' a c₁)
    (hk : ∀ a' d₁, c.groups ≤ c₁.groups → Q a a' c₁.groups → Follows site c₁ d₁ →
      CarriedTo site R c₁ d₁ (k' a') b c') :
    CarriedTo site R c d (r' >>= k') b c' := by
  obtain ⟨hgroups, hbefore, a', d₁, hfirst, ha, hfollows⟩ := h
  obtain ⟨hgroups', hbefore', b', d', hrest, hb, hfollows'⟩ := hk a' d₁ hgroups ha hfollows
  exact ⟨Nat.le_trans hgroups hgroups', hbefore'.trans hbefore, b', d',
    (Reading.bind_of_ok hfirst).trans hrest, hb, hfollows'⟩

/-- The second reader goes on with the same result. -/
theorem bind_same (h : CarriedTo site same c d r' a c₁)
    (hk : ∀ d₁, c.groups ≤ c₁.groups → Follows site c₁ d₁ → CarriedTo site R c₁ d₁ (k' a) b c') :
    CarriedTo site R c d (r' >>= k') b c' := by
  refine h.bind fun a' d₁ hgroups ha hfollows => ?_
  rw [show a' = a from ha]
  exact hk d₁ hgroups hfollows

end CarriedTo

namespace CarriesAt

variable {α β : Type} {site : Site} {Q : α → α → Nat → Prop} {R : β → β → Nat → Prop}
  {c d : Cursor} {r r' : Reading α}

theorem pure (h : Follows site c d) {a a' : α} (ha : Q a a' c.groups) :
    CarriesAt site Q c d (Pure.pure a) (Pure.pure a') := by
  rintro _ _ ⟨⟩
  exact ⟨Nat.le_refl _, rfl, a', d, rfl, ha, h⟩

/-- A reader that fails is carried over to any. -/
theorem of_fails (h : ∀ x, r c ≠ .ok x) : CarriesAt site Q c d r r' :=
  fun _ _ hread => absurd hread (h _)

theorem failBack {kind : Mistake} {back : Nat} :
    CarriesAt site Q c d (Reading.failBack kind back) r' :=
  of_fails (Reading.failBack_ne_ok kind back)

theorem failAt {kind : Mistake} {position : Nat} :
    CarriesAt site Q c d (Reading.failAt kind position) r' :=
  of_fails (Reading.failAt_ne_ok kind position)

theorem failBack_bind {kind : Mistake} {back : Nat} {k : α → Reading β} {r' : Reading β} :
    CarriesAt site R c d (Reading.failBack kind back >>= k) r' := by
  refine of_fails fun x hread => ?_
  obtain ⟨_, _, hfail, _⟩ := Reading.bind_eq_ok.1 hread
  exact Reading.failBack_ne_ok _ _ _ hfail

/-- What is read by a reader and one behind it. -/
theorem bind_outcome {k k' : α → Reading β} {b : β} {c' : Cursor}
    (hread : (r >>= k) c = .ok (b, c')) (hr : CarriesAt site Q c d r r')
    (hk : ∀ a a' c₁ d₁, c.groups ≤ c₁.groups → Q a a' c₁.groups → Follows site c₁ d₁ →
      k a c₁ = .ok (b, c') → CarriedTo site R c₁ d₁ (k' a') b c') :
    CarriedTo site R c d (r' >>= k') b c' := by
  obtain ⟨a, c₁, hfirst, hrest⟩ := Reading.bind_eq_ok.1 hread
  exact (hr a c₁ hfirst).bind fun a' d₁ hgroups ha hfollows =>
    hk a a' c₁ d₁ hgroups ha hfollows hrest

/-- A reader is carried over with one behind it. -/
theorem bind (hr : CarriesAt site Q c d r r') {k k' : α → Reading β}
    (hk : ∀ a a' c₁ d₁, c.groups ≤ c₁.groups → Q a a' c₁.groups → Follows site c₁ d₁ →
      CarriesAt site R c₁ d₁ (k a) (k' a')) :
    CarriesAt site R c d (r >>= k) (r' >>= k') :=
  fun b c' hread => bind_outcome hread hr fun a a' c₁ d₁ hgroups ha hfollows =>
    hk a a' c₁ d₁ hgroups ha hfollows b c'

theorem bind_same_outcome {k k' : α → Reading β} {b : β} {c' : Cursor}
    (hread : (r >>= k) c = .ok (b, c')) (hr : CarriesAt site same c d r r')
    (hk : ∀ a c₁ d₁, c.groups ≤ c₁.groups → Follows site c₁ d₁ → k a c₁ = .ok (b, c') →
      CarriedTo site R c₁ d₁ (k' a) b c') :
    CarriedTo site R c d (r' >>= k') b c' := by
  obtain ⟨a, c₁, hfirst, hrest⟩ := Reading.bind_eq_ok.1 hread
  exact (hr a c₁ hfirst).bind_same fun d₁ hgroups hfollows => hk a c₁ d₁ hgroups hfollows hrest

theorem bind_same (hr : CarriesAt site same c d r r') {k k' : α → Reading β}
    (hk : ∀ a c₁ d₁, c.groups ≤ c₁.groups → Follows site c₁ d₁ →
      CarriesAt site R c₁ d₁ (k a) (k' a)) :
    CarriesAt site R c d (r >>= k) (r' >>= k') :=
  fun b c' hread => bind_same_outcome hread hr fun a c₁ d₁ hgroups hfollows =>
    hk a c₁ d₁ hgroups hfollows b c'

/-- A look at the state. -/
theorem get_bind {k k' : Cursor → Reading β} (hk : CarriesAt site R c d (k c) (k' d)) :
    CarriesAt site R c d (get >>= k) (get >>= k') :=
  hk

/-- What is read after a look at the state. -/
theorem get_bind_outcome {k k' : Cursor → Reading β} {b : β} {c' : Cursor}
    (hread : (get >>= k) c = .ok (b, c'))
    (hk : k c c = .ok (b, c') → CarriedTo site R c d (k' d) b c') :
    CarriedTo site R c d (get >>= k') b c' :=
  hk hread

/-- What is read after a look at the next token, which behind the end of the text may be a closing
parenthesis. -/
theorem peek_bind_outcome (h : Follows site c d) {k k' : Option Token → Reading β} {b : β}
    {c' : Cursor} (hread : (Reading.peek >>= k) c = .ok (b, c'))
    (hnone : c.rest = [] → ∀ t, t = none ∨ t = some (.char ')') → k none c = .ok (b, c') →
      CarriedTo site R c d (k' t) b c')
    (hsome : ∀ token, Reading.firstToken? c.rest = some token → k (some token) c = .ok (b, c') →
      CarriedTo site R c d (k' (some token)) b c') :
    CarriedTo site R c d (Reading.peek >>= k') b c' := by
  rw [Reading.bind_of_ok (Reading.peek_run c)] at hread
  rw [CarriedTo, Reading.bind_of_ok (Reading.peek_run d), h.rest_eq]
  by_cases hrest : c.rest = []
  · rw [firstToken?_eq_none_iff.2 hrest] at hread
    rw [hrest, List.nil_append]
    exact hnone hrest _ site.isTail.firstToken? hread
  · rw [firstToken?_append hrest h.complete]
    cases htoken : Reading.firstToken? c.rest with
    | none => exact absurd (firstToken?_eq_none_iff.1 htoken) hrest
    | some token =>
      rw [htoken] at hread
      exact hsome token htoken hread

/-- A look at the next token. -/
theorem peek_bind (h : Follows site c d) {k k' : Option Token → Reading β}
    (hnone : c.rest = [] → ∀ t, t = none ∨ t = some (.char ')') →
      CarriesAt site R c d (k none) (k' t))
    (hsome : ∀ token, Reading.firstToken? c.rest = some token →
      CarriesAt site R c d (k (some token)) (k' (some token))) :
    CarriesAt site R c d (Reading.peek >>= k) (Reading.peek >>= k') :=
  fun b c' hread => peek_bind_outcome h hread (fun hnil t ht => hnone hnil t ht b c')
    fun token htoken => hsome token htoken b c'

end CarriesAt

/-- Both cursors take the same token. -/
theorem Cursor.Follows.next {site : Site} {c d : Cursor} (h : Follows site c d) {token : Token}
    (htoken : Reading.firstToken? c.rest = some token)
    (hcomplete : c.rest.drop token.length ≠ ['\\']) :
    Follows site
      { c with rest := c.rest.drop token.length, position := c.position + token.length }
      { d with rest := d.rest.drop token.length, position := d.position + token.length } where
  rest_eq := by
    rw [h.rest_eq, List.drop_append_of_le_length (length_le_of_firstToken? htoken)]
  complete := hcomplete
  free := fun hrefers => isFreeOf_drop (h.free hrefers) htoken
  unflagged := fun hinner => isFreeOf_drop (h.unflagged hinner) htoken
  characters_eq := h.characters_eq
  characters_same := h.characters_same
  flags_eq := h.flags_eq
  groups_eq := h.groups_eq
  names_eq := h.names_eq
  closed_eq := h.closed_eq
  groupsBefore_eq := h.groupsBefore_eq
  conditions_eq := h.conditions_eq
  verbose_eq := h.verbose_eq
  numbered := h.numbered.move _ _ _ _

namespace CarriesAt

variable {β : Type} {site : Site} {R : β → β → Nat → Prop} {c d : Cursor}

/-- What is read from behind the token that comes next. -/
theorem next_bind_outcome (h : Follows site c d) {k k' : Option Token → Reading β} {b : β}
    {c' : Cursor} (hread : (Reading.next >>= k) c = .ok (b, c'))
    (hnone : c.rest = [] → k none c ≠ .ok (b, c'))
    (hsome : ∀ token c₁ d₁, IsPast token c c₁ → Follows site c₁ d₁ →
      k (some token) c₁ = .ok (b, c') → CarriedTo site R c₁ d₁ (k' (some token)) b c') :
    CarriedTo site R c d (Reading.next >>= k') b c' := by
  have hnext := Reading.next_run c
  cases htoken : Reading.firstToken? c.rest with
  | none =>
    rw [htoken] at hnext
    rw [Reading.bind_of_ok hnext] at hread
    exact absurd hread (hnone (firstToken?_eq_none_iff.1 htoken))
  | some token =>
    have hrest : c.rest ≠ [] := by
      rintro hnil
      rw [hnil] at htoken
      cases htoken
    simp only [htoken] at hnext
    split at hnext
    · obtain ⟨_, _, hfail, _⟩ := Reading.bind_eq_ok.1 hread
      rw [hnext] at hfail
      cases hfail
    · rename_i hcomplete
      rw [Reading.bind_of_ok hnext] at hread
      have hfollows := h.next htoken hcomplete
      have hdrop : d.rest.drop token.length = c.rest.drop token.length ++ site.tail :=
        hfollows.rest_eq
      have hcomplete' : d.rest.drop token.length ≠ ['\\'] := by
        rw [hdrop]
        exact site.isTail.complete_append hcomplete
      have hnext' := Reading.next_run d
      have htoken' : Reading.firstToken? d.rest = some token := by
        rw [h.rest_eq, firstToken?_append hrest h.complete, htoken]
      simp only [htoken', if_neg hcomplete'] at hnext'
      have hpast : IsPast token c { c with
          rest := c.rest.drop token.length, position := c.position + token.length } :=
        ⟨htoken, rfl, rfl⟩
      obtain ⟨hgroups, hbefore, b', d', hrest', hb, hfollows'⟩ :=
        hsome token _ _ hpast hfollows hread
      exact ⟨hgroups, hbefore, b', d', (Reading.bind_of_ok hnext').trans hrest', hb, hfollows'⟩

/-- The cursor behind a token. -/
theorem next_bind (h : Follows site c d) {k k' : Option Token → Reading β}
    (hnone : c.rest = [] → ∀ x, k none c ≠ .ok x)
    (hsome : ∀ token c₁ d₁, IsPast token c c₁ → Follows site c₁ d₁ →
      CarriesAt site R c₁ d₁ (k (some token)) (k' (some token))) :
    CarriesAt site R c d (Reading.next >>= k) (Reading.next >>= k') :=
  fun b c' hread => next_bind_outcome h hread (fun hnil => hnone hnil _)
    fun token c₁ d₁ hpast hfollows => hsome token c₁ d₁ hpast hfollows b c'

end CarriesAt

namespace Carries

variable {α β : Type} {site : Site} {Q : α → α → Nat → Prop} {R : β → β → Nat → Prop}
  {r r' : Reading α}

theorem bind_same (hr : Carries site same r r') {k k' : α → Reading β}
    (hk : ∀ a, Carries site R (k a) (k' a)) : Carries site R (r >>= k) (r' >>= k') :=
  fun _ _ h => (hr h).bind_same fun a _ _ _ hfollows => hk a hfollows

theorem pure {a a' : α} (ha : ∀ n, Q a a' n) : Carries site Q (Pure.pure a) (Pure.pure a') :=
  fun _ _ h => .pure h (ha _)

theorem failBack (kind : Mistake) (back : Nat) : Carries site Q (Reading.failBack kind back) r' :=
  fun _ _ _ => .failBack

/-! ## Tokens -/

/-- A character other than a closing parenthesis is no part of the tail. -/
theorem accept {ch : Char} (hch : ch ≠ ')') :
    Carries site same (Reading.accept ch) (Reading.accept ch) := by
  intro c d h
  unfold Reading.accept
  refine .peek_bind h (fun _ t ht => ?_) fun token htoken => ?_
  · have hne : (t == some (Token.char ch)) = false := by
      rcases ht with rfl | rfl <;> simp [Ne.symm hch]
    rw [hne]
    exact .pure h rfl
  · split
    · refine .next_bind h (fun hnil => ?_) fun _ c₁ d₁ _ hfollows => ?_
      · rw [hnil] at htoken
        cases htoken
      · exact .pure hfollows rfl
    · exact .pure h rfl

/-- A bound on the number of characters does not matter if it is that of the text. -/
theorem takeWhile {test : Char → Bool} (htest : test ')' = false) {most most' : Nat} {c d : Cursor}
    (h : Follows site c d) (hmost : most = most' ∨ c.rest.length ≤ most ∧ most ≤ most') :
    CarriesAt site same c d (Reading.takeWhile test most) (Reading.takeWhile test most') := by
  induction most generalizing most' c d with
  | zero =>
    cases most' with
    | zero => exact .pure h rfl
    | succ most' =>
      have hnil : c.rest = [] := by
        rw [← List.length_eq_zero_iff]
        omega
      rintro _ _ ⟨⟩
      refine ⟨Nat.le_refl _, rfl, [], d, ?_, rfl, h⟩
      rw [Reading.takeWhile, Reading.bind_of_ok (Reading.peek_run d), h.rest_eq, hnil,
        List.nil_append]
      rcases site.isTail.firstToken? with ht | ht
      · rw [ht]
        rfl
      · simp only [ht, htest, Bool.false_eq_true, if_false]
        rfl
  | succ most ih =>
    obtain ⟨most', rfl⟩ : ∃ n, most' = n + 1 := ⟨most' - 1, by omega⟩
    rw [Reading.takeWhile, Reading.takeWhile]
    refine .peek_bind h (fun _ t ht => ?_) fun token htoken => ?_
    · rcases ht with rfl | rfl
      · exact .pure h rfl
      · simp only [htest, Bool.false_eq_true, if_false]
        exact .pure h rfl
    · cases token with
      | escape ch => exact .pure h rfl
      | char ch =>
        dsimp only
        split
        · refine .next_bind h (fun hnil => ?_) fun _ c₁ d₁ hpast hfollows => ?_
          · rw [hnil] at htoken
            cases htoken
          · have hlength := hpast.length_lt
            refine (ih hfollows (by omega)).bind_same fun taken c₂ d₂ _ hfollows' => ?_
            exact .pure hfollows' rfl
        · exact .pure h rfl

/-- The fuel of a name is more than there are characters. -/
theorem nameUpTo {closing : Char} {what : String} {fuel fuel' : Nat} {read : List Char}
    {c d : Cursor} (h : Follows site c d) (hfuel : c.rest.length < fuel) (hmore : fuel ≤ fuel') :
    CarriesAt site same c d (Reading.nameUpTo closing what fuel read)
      (Reading.nameUpTo closing what fuel' read) := by
  induction fuel generalizing fuel' read c d with
  | zero => omega
  | succ fuel ih =>
    obtain ⟨fuel', rfl⟩ : ∃ n, fuel' = n + 1 := ⟨fuel' - 1, by omega⟩
    rw [Reading.nameUpTo, Reading.nameUpTo]
    refine .next_bind h (fun _ x => ?_) fun token c₁ d₁ hpast hfollows => ?_
    · dsimp only
      split <;> exact Reading.failBack_ne_ok _ _ _
    · have hlength := hpast.length_lt
      dsimp only
      split
      · split
        · exact .failBack
        · exact .pure hfollows rfl
      · exact ih hfollows (by omega) (by omega)

theorem name (closing : Char) (what : String) :
    Carries site same (Reading.name closing what) (Reading.name closing what) := by
  intro c d h
  refine .get_bind (nameUpTo h (Nat.lt_succ_self _) ?_)
  rw [h.rest_eq, List.length_append]
  omega

/-! ## Groups -/

/-- Only a pattern with names gives names to groups. -/
theorem openGroup {name : Option (List Char)} (hname : name.isSome = true → site.refers = true) :
    Carries site (groupAt site) (Reading.openGroup name) (Reading.openGroup name) := by
  intro c d h
  have hnumbered := h.numbered
  have hindex : groupAt site c.groups d.groups (c.groups + 1) :=
    ⟨⟨hnumbered.groups_pos, Nat.lt_succ_self _⟩, h.groups_eq⟩
  have hgroups : d.groups + 1 = c.groups + 1 + site.before := by
    rw [h.groups_eq]
    omega
  refine .get_bind ?_
  cases name with
  | none =>
    rintro _ _ ⟨⟩
    refine ⟨Nat.le_succ _, rfl, _, _, rfl, hindex, ?_⟩
    exact { h with
      groups_eq := hgroups
      numbered := hnumbered.addGroup fun entry hentry => .inr hentry }
  | some chars =>
    have hnames := h.names_eq (hname rfl)
    dsimp only
    rw [hnames]
    split
    · exact .failBack_bind
    · rintro _ _ ⟨⟩
      have hbefore := site.before_eq (hname rfl)
      refine ⟨Nat.le_succ _, rfl, _, _, rfl, hindex, ?_⟩
      exact { h with
        names_eq := fun _ => by
          dsimp only
          rw [h.groups_eq, hbefore]
          rfl
        groups_eq := hgroups
        numbered := hnumbered.addGroup fun entry hentry =>
          (List.mem_cons.1 hentry).imp_left fun hnew => by rw [hnew] }

theorem closeGroup {c d : Cursor} (h : Follows site c d) {index index' : Nat}
    (hindex : groupAt site index index' c.groups) :
    CarriesAt site same c d (Reading.closeGroup index) (Reading.closeGroup index') := by
  rintro _ _ ⟨⟩
  refine ⟨Nat.le_refl _, rfl, (), _, rfl, rfl, ?_⟩
  exact { h with
    closed_eq := fun hrefers => by
      dsimp only
      rw [hindex.2, site.before_eq hrefers, h.closed_eq hrefers]
      rfl
    numbered := { h.numbered with closed := List.forall_mem_cons.2 ⟨hindex.1, h.numbered.closed⟩ } }

theorem checkName (chars : List Char) :
    Carries site same (Reading.checkName chars) (Reading.checkName chars) := by
  intro c d h
  unfold Reading.checkName
  split
  · exact .failBack
  · exact .pure h rfl

section

variable (hrefers : site.refers = true)

include hrefers

/-- A reader that only looks at the state, and sees the same in both. -/
theorem checkLookBehind (index : Nat) :
    Carries site same (Reading.checkLookBehind index) (Reading.checkLookBehind index) := by
  intro c d h
  refine .get_bind ?_
  have hbefore : d.groupsBefore = c.groupsBefore := by
    rw [h.groupsBefore_eq, site.before_eq hrefers]
    exact Option.map_id'
  rw [hbefore, h.closed_eq hrefers]
  split
  · exact .pure h rfl
  · split
    · exact .failBack
    · split
      · exact .failBack
      · exact .pure h rfl

theorem groupNamed (chars : List Char) :
    Carries site (groupAt site) (Reading.groupNamed chars) (Reading.groupNamed chars) := by
  intro c d h
  refine .get_bind ?_
  rw [h.names_eq hrefers]
  split
  · rename_i index hindex
    have hbefore := site.before_eq hrefers
    obtain ⟨before, behind, hentries, -⟩ := List.lookup_eq_some_iff.1 hindex
    refine .pure h ⟨?_, by rw [hbefore, Nat.add_zero]⟩
    exact h.numbered.names (String.ofList chars, index) (by rw [hentries]; simp)
  · exact .failBack

theorem noteCondition (index position position' : Nat) :
    Carries site same (Reading.noteCondition index position)
      (Reading.noteCondition index position') := by
  rintro c d h _ _ ⟨⟩
  have hconditions : d.conditions.map (·.1) = c.conditions.map (·.1) := by
    rw [h.conditions_eq, site.asked_eq hrefers, List.nil_append]
  have hknown : (d.conditions.lookup index).isSome = (c.conditions.lookup index).isSome := by
    rw [Bool.eq_iff_iff, isSome_lookup_iff, isSome_lookup_iff, hconditions]
  by_cases hnoted : (c.conditions.lookup index).isSome
  · refine ⟨by simp only [if_pos hnoted, Nat.le_refl], by simp only [if_pos hnoted], (), _, rfl, rfl,
      ?_⟩
    simp only [hknown, if_pos hnoted]
    exact h
  · refine ⟨by simp only [if_neg hnoted, Nat.le_refl], by simp only [if_neg hnoted], (), _, rfl, rfl,
      ?_⟩
    simp only [hknown, if_neg hnoted]
    exact { h with
      conditions_eq := by simp [h.conditions_eq]
      numbered := h.numbered.move _ _ _ _ }

end

end Carries

end BinaryStrings.Pattern

import BinaryStrings.Proofs.FileTree.Resolution

/-!
# Real paths lead where their paths do

Real paths are found with the links met before in mind and to a bounded depth.  Neither matters for
a path that leads somewhere: its real place is the place that it leads to.

The invariant is about the links met.  A link with a known real path leads there.  A link whose
target is still being followed has a target that takes at least as many steps as there are left;
meeting it again would take fewer steps than that, so it is not met again.  For the same reason the
links being followed are at different places, and there are not more of them than links in the tree.

Main results:

- Theorem `joinPath_finds`: following a path behind another one finds where it leads.
- Theorem `realPlace_eq_of_leadsTo`: the real place is the place that a path leads to.
- Theorem `exists_leadsTo_iff`: a path leads nowhere exactly when a loop is met.
- Theorem `realPlace_realPath`: the real path of a path has the same real place.
-/

namespace BinaryStrings.FileTree

/-! ## Paths under way -/

namespace Head

/-- No name of a path under way is empty or a dot. -/
def IsClean (head : Head) : Prop :=
  ∀ name ∈ head.names, name ≠ "" ∧ name ≠ "."

variable {head : Head} {name : String}

/-- The path to where one is has no names. -/
theorem isClean_here : here.IsClean := by
  simp [IsClean, here]

/-- Nor has that to the root. -/
theorem isClean_root : root.IsClean := by
  simp [IsClean, root]

/-- A name may be put behind if it is neither empty nor a dot. -/
theorem IsClean.push (h : head.IsClean) (hempty : name ≠ "") (hdot : name ≠ ".") :
    (head.push name).IsClean := by
  intro other hother
  rcases List.mem_append.1 hother with hold | hnew
  · exact h other hold
  · rw [List.mem_singleton.1 hnew]
    exact ⟨hempty, hdot⟩

/-- Going up takes a name away, or puts two dots behind. -/
theorem IsClean.pop (h : head.IsClean) : head.pop.IsClean := by
  have hup : (head.push "..").IsClean := h.push (by decide) (by decide)
  unfold Head.pop
  split
  · split
    · exact h
    · exact hup
  · split
    · exact hup
    · exact fun name hname => h name (List.dropLast_subset _ hname)

/-- A name behind a path is a step from its place. -/
theorem place_push (current : Place) (head : Head) (name : String) :
    (head.push name).place current = Path.step (head.place current) name := by
  simp only [place, push, Path.lexical, List.foldl_append]
  rfl

/-- Two dots lead to the place above. -/
theorem step_up (place : Place) : Path.step place ".." = place.dropLast :=
  rfl

/-- Going back a name goes up, two dots that are kept included. -/
theorem place_pop (current : Place) (h : head.IsClean) :
    head.pop.place current = (head.place current).dropLast := by
  have hup : (head.push "..").place current = (head.place current).dropLast := by
    rw [place_push, step_up]
  unfold Head.pop
  split
  · rename_i hlast
    have hnil : head.names = [] := List.getLast?_eq_none_iff.1 hlast
    split
    · rename_i hrooted
      simp [place, hnil, hrooted, Path.lexical]
    · exact hup
  · rename_i last hlast
    split
    · exact hup
    · rename_i hnot
      obtain ⟨init, hnames⟩ := List.getLast?_eq_some_iff.1 hlast
      obtain ⟨hempty, hdot⟩ := h last (by rw [hnames]; simp)
      have hlastStep := fun place =>
        Path.step_eq_append place hempty hdot (by simpa using hnot)
      simp [place, hnames, Path.lexical, hlastStep]

end Head

/-- A link is found at a path if one is at its place. -/
theorem linkAt?_eq_some_iff {tree : FileTree} {head : Head} {target : String} :
    tree.linkAt? head = some target ↔
      tree.nodeAt? (head.place tree.current) = some (.link target) := by
  unfold linkAt?
  cases tree.nodeAt? (head.place tree.current) with
  | none => simp
  | some node => cases node <;> simp

/-- Behind a path under way, a name leads to a link where the tree has one. -/
theorem linkAt?_push (tree : FileTree) (head : Head) {name : String} (hempty : name ≠ "")
    (hdot : name ≠ ".") (hup : name ≠ "..") :
    tree.linkAt? (head.push name) = tree.linkBehind? (head.place tree.current) name := by
  rw [linkAt?, linkBehind?, Path.special_eq_false hempty hdot hup, Head.place_push,
    Path.step_eq_append _ hempty hdot hup]
  rfl

/-! ## Links met before -/

/-- Without repetitions nothing is there twice. -/
theorem nodup_eraseDups {α : Type} [BEq α] [LawfulBEq α] : ∀ list : List α, list.eraseDups.Nodup
  | [] => by simp
  | first :: rest => by
    rw [List.eraseDups_cons, List.nodup_cons, List.mem_eraseDups]
    exact ⟨by simp, nodup_eraseDups _⟩
termination_by list => list.length
decreasing_by
  have hlength := List.length_filter_le (fun other => !other == first) rest
  rw [List.length_cons]
  omega

/-- So the places of links are there once. -/
theorem nodup_linkPlaces (tree : FileTree) : tree.linkPlaces.Nodup :=
  nodup_eraseDups _

/-- Whether a link is at a place. -/
theorem isLinkAt_iff {tree : FileTree} {place : Place} :
    tree.isLinkAt place = true ↔ ∃ target, tree.nodeAt? place = some (.link target) := by
  unfold isLinkAt
  cases tree.nodeAt? place with
  | none => simp
  | some node => cases node <;> simp

/-- The places of the links are those where a link stands. -/
theorem mem_linkPlaces_iff {tree : FileTree} {place : Place} :
    place ∈ tree.linkPlaces ↔ ∃ target, tree.nodeAt? place = some (.link target) := by
  rw [← isLinkAt_iff, linkPlaces, List.mem_eraseDups, List.mem_filter, and_iff_right_of_imp]
  intro hlink
  obtain ⟨target, hnode⟩ := isLinkAt_iff.1 hlink
  unfold nodeAt? at hnode
  split at hnode
  · cases hnode
  · obtain ⟨before, after, hnodes, _⟩ := List.lookup_eq_some_iff.1 hnode
    rw [hnodes]
    simp

/-- The target of the link at a place leads to a final place in so many steps. -/
def LinkLeads (tree : FileTree) (link : Place) (steps : Nat) (final : Place) : Prop :=
  ∃ target, tree.nodeAt? link = some (.link target) ∧
    Resolves tree steps (Path.origin link.dropLast target) (Path.parts target) final

/-- A link behind a name is at the place of the name. -/
theorem nodeAt?_of_linkBehind? {tree : FileTree} {place : Place} {name target : String}
    (hname : tree.linkBehind? place name = some target) :
    tree.nodeAt? (place ++ [name]) = some (.link target) := by
  unfold linkBehind? at hname
  split at hname
  · cases hname
  · split at hname
    · rename_i hnode
      rw [hnode, Option.some.inj hname]
    · cases hname

/-- A link leads where its target does from the place that the link is in. -/
theorem linkLeads_iff {tree : FileTree} {place final : Place} {name target : String} {steps : Nat}
    (hname : tree.linkBehind? place name = some target) :
    tree.LinkLeads (place ++ [name]) steps final ↔
      Resolves tree steps (Path.origin place target) (Path.parts target) final := by
  have hnode := nodeAt?_of_linkBehind? hname
  unfold LinkLeads
  rw [List.dropLast_concat, hnode]
  constructor
  · rintro ⟨target', htarget, hleads⟩
    cases htarget
    exact hleads
  · exact fun hleads => ⟨target, rfl, hleads⟩

/-- A link leads to one place, in as many steps. -/
theorem LinkLeads.unique {tree : FileTree} {link : Place} {steps steps' : Nat}
    {final final' : Place} (h : tree.LinkLeads link steps final)
    (h' : tree.LinkLeads link steps' final') : steps = steps' ∧ final = final' := by
  obtain ⟨target, hnode, hleads⟩ := h
  obtain ⟨target', hnode', hleads'⟩ := h'
  rw [hnode] at hnode'
  cases hnode'
  exact hleads.unique hleads'

/-- The link at a place leads somewhere, and its target takes at least so many steps. -/
def IsBusy (tree : FileTree) (steps : Nat) (link : Place) : Prop :=
  ∃ more final, steps ≤ more ∧ tree.LinkLeads link more final

/-- A link whose target takes many steps takes fewer, too. -/
theorem IsBusy.mono {tree : FileTree} {steps fewer : Nat} {link : Place}
    (h : tree.IsBusy steps link) (hfewer : fewer ≤ steps) : tree.IsBusy fewer link := by
  obtain ⟨more, final, hmore, hleads⟩ := h
  exact ⟨more, final, Nat.le_trans hfewer hmore, hleads⟩

/-- A link is not met while a target is followed that takes more steps than its own. -/
theorem LinkLeads.not_isBusy {tree : FileTree} {link : Place} {steps more : Nat} {final : Place}
    (h : tree.LinkLeads link steps final) (hmore : steps < more) : ¬ tree.IsBusy more link := by
  rintro ⟨steps', final', hle, h'⟩
  have hsteps := (h.unique h').1
  omega

namespace LinksSeen

/-- The real path that is known of every link is right. -/
def IsRight (tree : FileTree) (seen : LinksSeen) : Prop :=
  ∀ link real, seen.lookup link = some (some real) → real.IsClean ∧
    ∃ steps, tree.LinkLeads (link.place tree.current) steps (real.place tree.current)

/-- The target of every link that is being followed takes at least so many steps. -/
def IsBusy (tree : FileTree) (steps : Nat) (seen : LinksSeen) : Prop :=
  ∀ link, seen.lookup link = some none → tree.IsBusy steps (link.place tree.current)

/-- What is noted of a link is known of it, and of the others what was known before. -/
theorem lookup_set (seen : LinksSeen) (link other : Head) (real : Option Head) :
    (seen.set link real).lookup other = if other = link then some real else seen.lookup other := by
  rw [set, List.lookup_cons]
  by_cases h : other = link
  · simp [h]
  · rw [beq_false_of_ne h, if_neg h]

variable {tree : FileTree} {seen : LinksSeen}

/-- To note that a link is being followed says nothing wrong. -/
theorem IsRight.set_none (h : seen.IsRight tree) (link : Head) :
    (seen.set link none).IsRight tree := by
  intro other real hother
  rw [lookup_set] at hother
  split at hother
  · cases hother
  · exact h other real hother

/-- Nor does it to note where a link leads. -/
theorem IsRight.set_some {link real : Head} {steps : Nat} (h : seen.IsRight tree)
    (hclean : real.IsClean)
    (hleads : tree.LinkLeads (link.place tree.current) steps (real.place tree.current)) :
    (seen.set link (some real)).IsRight tree := by
  intro other real' hother
  rw [lookup_set] at hother
  split at hother
  · rename_i hsame
    cases hother
    exact ⟨hclean, steps, hsame ▸ hleads⟩
  · exact h other real' hother

/-- A link that is being followed takes its steps. -/
theorem IsBusy.set_none {link : Head} {steps : Nat} (h : seen.IsBusy tree steps)
    (hlink : tree.IsBusy steps (link.place tree.current)) :
    (seen.set link none).IsBusy tree steps := by
  intro other hother
  rw [lookup_set] at hother
  split at hother
  · rename_i hsame
    rw [hsame]
    exact hlink
  · exact h other hother

/-- What is pending behind a link that was followed was pending before it, for the link itself is
known by then. -/
theorem pending_of_set {seen' : LinksSeen} {link real other : Head}
    (hpending : ∀ other, seen'.lookup other = some none →
      (seen.set link none).lookup other = some none)
    (hother : (seen'.set link (some real)).lookup other = some none) :
    seen.lookup other = some none := by
  rw [lookup_set] at hother
  split at hother
  · cases hother
  · rename_i hne
    have hbefore := hpending other hother
    rw [lookup_set, if_neg hne] at hbefore
    exact hbefore

end LinksSeen

/-! ## Following a path -/

section

variable {tree : FileTree} {head : Head} {name : String}
  (resolve : LinksSeen → Head → String → Joined)

/-- A name that leads to no link takes a path under way one name further. -/
theorem joinParts_of_none (hclean : head.IsClean)
    (hname : tree.linkBehind? (head.place tree.current) name = none) :
    ∃ next : Head, next.IsClean ∧
      next.place tree.current = Path.step (head.place tree.current) name ∧
        ∀ seen rest, joinParts tree resolve seen head (name :: rest) =
          joinParts tree resolve seen next rest := by
  by_cases hstay : name.isEmpty || name == "."
  · refine ⟨head, hclean, by rw [Path.step, if_pos hstay], fun seen rest => ?_⟩
    rw [joinParts, if_pos hstay]
  · by_cases hup : name == ".."
    · refine ⟨head.pop, hclean.pop, ?_, fun seen rest => ?_⟩
      · rw [Path.step, if_neg hstay, if_pos hup, Head.place_pop _ hclean]
      · rw [joinParts, if_neg hstay, if_pos hup]
    · have hplain := hstay
      simp only [Bool.or_eq_true, String.isEmpty_iff, beq_iff_eq, not_or] at hplain
      have hlinkAt := linkAt?_push tree head hplain.1 hplain.2 (by simpa using hup)
      refine ⟨head.push name, hclean.push hplain.1 hplain.2, Head.place_push _ _ _,
        fun seen rest => ?_⟩
      rw [joinParts, if_neg hstay, if_neg hup]
      dsimp only
      rw [hlinkAt, hname]

/-- A name that leads to a link is looked up among the links met. -/
theorem joinParts_of_some {target : String}
    (hname : tree.linkBehind? (head.place tree.current) name = some target) :
    (head.push name).place tree.current = head.place tree.current ++ [name] ∧
      ∀ seen rest, joinParts tree resolve seen head (name :: rest) =
        match seen.lookup (head.push name) with
        | some (some real) => joinParts tree resolve seen real rest
        | some none => ⟨(head.push name).join rest, false, seen⟩
        | none =>
          let inner := resolve (seen.set (head.push name) none) head target
          if inner.free then
            joinParts tree resolve (inner.seen.set (head.push name) (some inner.head))
              inner.head rest
          else ⟨inner.head.join rest, false, inner.seen⟩ := by
  have hspecial : ¬ (name.isEmpty || name == "." || name == "..") = true := by
    intro hspecial
    rw [linkBehind?_of_special _ hspecial] at hname
    cases hname
  simp only [Bool.or_eq_true, String.isEmpty_iff, beq_iff_eq, not_or] at hspecial
  obtain ⟨⟨hempty, hdot⟩, hup⟩ := hspecial
  have hlinkAt := linkAt?_push tree head hempty hdot hup
  rw [hname] at hlinkAt
  refine ⟨by rw [Head.place_push, Path.step_eq_append _ hempty hdot hup], fun seen rest => ?_⟩
  rw [joinParts, if_neg (by simpa using ⟨hempty, hdot⟩), if_neg (by simpa using hup)]
  rcases hseen : seen.lookup (head.push name) with _ | _ | real <;> simp only [hlinkAt, hseen]

end

/-- What following names gives that lead to a final place: a path under way of this place, links met
that are right, and none of them still being followed that was not before. -/
structure Finds (tree : FileTree) (seen : LinksSeen) (final : Place) (joined : Joined) : Prop where
  free : joined.free = true
  clean : joined.head.IsClean
  place_eq : joined.head.place tree.current = final
  right : joined.seen.IsRight tree
  pending : ∀ link, joined.seen.lookup link = some none → seen.lookup link = some none

/-- Following targets is right while the links at some places are being followed. -/
def Follows (tree : FileTree) (active : List Place)
    (resolve : LinksSeen → Head → String → Joined) : Prop :=
  ∀ (seen : LinksSeen) (head : Head) (target : String) (steps : Nat) (final : Place),
    head.IsClean → seen.IsRight tree → seen.IsBusy tree steps →
      (∀ link ∈ active, tree.IsBusy steps link) →
        Resolves tree steps (Path.origin (head.place tree.current) target) (Path.parts target)
          final →
          Finds tree seen final (resolve seen head target)

/-- Going over names is right when following targets is, whichever further link is followed. -/
theorem joinParts_finds {tree : FileTree} {active : List Place}
    {resolve : LinksSeen → Head → String → Joined}
    (hresolve : ∀ link ∉ active, Follows tree (link :: active) resolve)
    {steps : Nat} {seen : LinksSeen} {head : Head} {names : List String} {final : Place}
    (hclean : head.IsClean) (hright : seen.IsRight tree) (hbusy : seen.IsBusy tree steps)
    (hactive : ∀ link ∈ active, tree.IsBusy steps link)
    (hnames : Resolves tree steps (head.place tree.current) names final) :
    Finds tree seen final (joinParts tree resolve seen head names) := by
  induction names generalizing steps seen head with
  | nil =>
    cases hnames
    exact ⟨rfl, hclean, rfl, hright, fun _ h => h⟩
  | cons name rest ih =>
    -- The links that are being followed take more steps than are left behind this name.
    have hfewer : ∀ {fewer : Nat}, fewer ≤ steps → seen.IsBusy tree fewer ∧
        ∀ link ∈ active, tree.IsBusy fewer link := fun hle =>
      ⟨fun link h => (hbusy link h).mono hle, fun link h => (hactive link h).mono hle⟩
    cases hname : tree.linkBehind? (head.place tree.current) name with
    | none =>
      obtain ⟨fewer, rfl, hrest⟩ := hnames.of_cons_none hname
      obtain ⟨next, hnext, hplace, heq⟩ := joinParts_of_none resolve hclean hname
      obtain ⟨hbusy', hactive'⟩ := hfewer (Nat.le_succ fewer)
      rw [← hplace] at hrest
      rw [heq]
      exact ih hnext hright hbusy' hactive' hrest
    | some target =>
      obtain ⟨inner, more, behind, rfl, htarget, hrest⟩ := hnames.of_cons_link hname
      obtain ⟨hplace, heq⟩ := joinParts_of_some resolve hname
      have hleads := (linkLeads_iff hname).2 htarget
      obtain ⟨hbusy', hactive'⟩ := hfewer (show more ≤ inner + more + 1 by omega)
      rw [← hplace] at hleads
      rw [heq]
      split
      · rename_i real hknown
        obtain ⟨hrealClean, steps', hreal⟩ := hright _ real hknown
        rw [← (hreal.unique hleads).2] at hrest
        exact ih hrealClean hright hbusy' hactive' hrest
      · rename_i hpending
        exact absurd (hbusy _ hpending) (hleads.not_isBusy (by omega))
      · have hnew : (head.push name).place tree.current ∉ active :=
          fun hmem => hleads.not_isBusy (by omega) (hactive _ hmem)
        have hself : tree.IsBusy inner ((head.push name).place tree.current) :=
          ⟨inner, behind, Nat.le_refl inner, hleads⟩
        obtain ⟨hbusyInner, hactiveInner⟩ := hfewer (show inner ≤ inner + more + 1 by omega)
        have hinner := hresolve _ hnew _ head target inner behind hclean (hright.set_none _)
          (hbusyInner.set_none hself) (List.forall_mem_cons.2 ⟨hself, hactiveInner⟩) htarget
        rw [← hinner.place_eq] at hleads hrest
        dsimp only
        rw [if_pos hinner.free]
        have hout := ih hinner.clean (hinner.right.set_some hinner.clean hleads)
          (fun other hother => hbusy' other (LinksSeen.pending_of_set hinner.pending hother))
          hactive' hrest
        exact ⟨hout.free, hout.clean, hout.place_eq, hout.right, fun other hother =>
          LinksSeen.pending_of_set hinner.pending (hout.pending other hother)⟩

/-- Following a path behind another one finds where it leads, when the depth left covers the links
that are not being followed. -/
theorem joinPath_finds {tree : FileTree} (depth : Nat) {active : List Place}
    (hnodup : active.Nodup) (hdepth : tree.linkPlaces.length < depth + active.length) :
    Follows tree active (joinPath tree depth) := by
  induction depth generalizing active with
  | zero =>
    intro seen head target steps final _ _ _ hactive _
    have hsubset : active ⊆ tree.linkPlaces := by
      intro link hlink
      obtain ⟨_, _, _, target, hnode, _⟩ := hactive link hlink
      exact mem_linkPlaces_iff.2 ⟨target, hnode⟩
    have hlength := hnodup.length_le_of_subset hsubset
    omega
  | succ depth ih =>
    intro seen head target steps final hclean hright hbusy hactive htarget
    have hresolve : ∀ link ∉ active, Follows tree (link :: active) (joinPath tree depth) := by
      intro link hlink
      refine ih (List.nodup_cons.2 ⟨hlink, hnodup⟩) ?_
      rw [List.length_cons]
      omega
    unfold joinPath
    refine joinParts_finds hresolve ?_ hright hbusy hactive ?_
    · split
      · exact Head.isClean_root
      · exact hclean
    · unfold Path.origin at htarget
      split
      · rename_i hrooted
        rw [if_pos hrooted] at htarget
        exact htarget
      · rename_i hrooted
        rw [if_neg hrooted] at htarget
        exact htarget

/-! ## Loops -/

/-- What following names gives that meets no loop: they lead to the place of the path under way. -/
structure Reached (tree : FileTree) (start : Place) (names : List String) (joined : Joined) :
    Prop where
  clean : joined.head.IsClean
  right : joined.seen.IsRight tree
  leads : ∃ steps, Resolves tree steps start names (joined.head.place tree.current)

/-- Following targets meets no loop only where they lead somewhere. -/
def IsSound (tree : FileTree) (resolve : LinksSeen → Head → String → Joined) : Prop :=
  ∀ (seen : LinksSeen) (head : Head) (target : String), head.IsClean → seen.IsRight tree →
    (resolve seen head target).free = true →
      Reached tree (Path.origin (head.place tree.current) target) (Path.parts target)
        (resolve seen head target)

/-- What is reached behind a step is reached before it. -/
theorem Reached.step {tree : FileTree} {place : Place} {name : String} {rest : List String}
    {joined : Joined} (hname : tree.linkBehind? place name = none)
    (h : Reached tree (Path.step place name) rest joined) :
    Reached tree place (name :: rest) joined := by
  obtain ⟨steps, hsteps⟩ := h.leads
  exact ⟨h.clean, h.right, steps + 1, .step hname hsteps⟩

/-- So is what is reached behind the target of a link. -/
theorem Reached.link {tree : FileTree} {place behind : Place} {name target : String}
    {rest : List String} {joined : Joined} {steps : Nat}
    (hname : tree.linkBehind? place name = some target)
    (htarget : Resolves tree steps (Path.origin place target) (Path.parts target) behind)
    (h : Reached tree behind rest joined) : Reached tree place (name :: rest) joined := by
  obtain ⟨more, hmore⟩ := h.leads
  exact ⟨h.clean, h.right, steps + more + 1, .link hname htarget hmore⟩

/-- Names are joined to the place that they lead to, if links are followed to theirs. -/
theorem joinParts_reached {tree : FileTree} {resolve : LinksSeen → Head → String → Joined}
    (hresolve : IsSound tree resolve) {seen : LinksSeen} {head : Head} {names : List String}
    (hclean : head.IsClean) (hright : seen.IsRight tree)
    (hfree : (joinParts tree resolve seen head names).free = true) :
    Reached tree (head.place tree.current) names (joinParts tree resolve seen head names) := by
  induction names generalizing seen head with
  | nil => exact ⟨hclean, hright, 0, .done _⟩
  | cons name rest ih =>
    cases hname : tree.linkBehind? (head.place tree.current) name with
    | none =>
      obtain ⟨next, hnext, hplace, heq⟩ := joinParts_of_none resolve hclean hname
      rw [heq] at hfree ⊢
      refine .step hname ?_
      rw [← hplace]
      exact ih hnext hright hfree
    | some target =>
      obtain ⟨hplace, heq⟩ := joinParts_of_some resolve hname
      rw [heq] at hfree ⊢
      split at hfree
      · rename_i real hknown
        obtain ⟨hrealClean, steps, hreal⟩ := hright _ real hknown
        rw [hplace] at hreal
        exact .link hname ((linkLeads_iff hname).1 hreal) (ih hrealClean hright hfree)
      · cases hfree
      · dsimp only at hfree ⊢
        split at hfree
        · rename_i hinnerFree
          rw [if_pos hinnerFree]
          have hinner := hresolve _ head target hclean (hright.set_none _) hinnerFree
          obtain ⟨steps, htarget⟩ := hinner.leads
          have hleads := (linkLeads_iff hname).2 htarget
          rw [← hplace] at hleads
          exact .link hname htarget
            (ih hinner.clean (hinner.right.set_some hinner.clean hleads) hfree)
        · cases hfree

/-- Links are followed to where they lead, at any depth. -/
theorem joinPath_isSound (tree : FileTree) (depth : Nat) : IsSound tree (joinPath tree depth) := by
  induction depth with
  | zero =>
    intro seen head target _ _ hfree
    cases hfree
  | succ depth ih =>
    intro seen head target hclean hright hfree
    unfold joinPath at hfree ⊢
    unfold Path.origin
    split at hfree
    · rename_i hrooted
      rw [if_pos hrooted]
      simp only [if_pos hrooted]
      exact joinParts_reached ih Head.isClean_root hright hfree
    · rename_i hrooted
      simp only [if_neg hrooted]
      exact joinParts_reached ih hclean hright hfree

/-! ## Real places -/

variable {tree : FileTree} {path : String} {place : Place}

/-- A path that leads somewhere is joined to that place. -/
theorem joinPath_finds_of_leadsTo (h : tree.LeadsTo path place) :
    Finds tree [] place (joinPath tree tree.deepest [] .here path) := by
  obtain ⟨steps, hsteps⟩ := h
  have hdepth : tree.linkPlaces.length < tree.deepest + ([] : List Place).length := by
    have hfactor : 1 * tree.linkPlaces.length ≤ (tree.current.length + 2) * tree.linkPlaces.length :=
      Nat.mul_le_mul_right _ (by omega)
    unfold deepest
    simp only [List.length_nil]
    omega
  exact joinPath_finds tree.deepest List.nodup_nil hdepth [] Head.here path steps place
    Head.isClean_here (by simp [LinksSeen.IsRight]) (by simp [LinksSeen.IsBusy]) (by simp) hsteps

/-- The real place of a path is the place that it leads to. -/
theorem realPlace_eq_of_leadsTo (h : tree.LeadsTo path place) : tree.realPlace path = place :=
  (joinPath_finds_of_leadsTo h).place_eq

/-- A path leads somewhere exactly when its real path is found without meeting a loop. -/
theorem exists_leadsTo_iff : (∃ place, tree.LeadsTo path place) ↔
    (joinPath tree tree.deepest [] .here path).free = true := by
  constructor
  · rintro ⟨place, hplace⟩
    exact (joinPath_finds_of_leadsTo hplace).free
  · intro hfree
    exact ⟨_, (joinPath_isSound tree _ [] Head.here path Head.isClean_here
      (by simp [LinksSeen.IsRight]) hfree).leads⟩

/-- Where a path leads from a settled current directory, there is no link on the way. -/
theorem LeadsTo.isSettled (h : tree.LeadsTo path place) (hcurrent : tree.IsSettled tree.current) :
    tree.IsSettled place := by
  obtain ⟨steps, hsteps⟩ := h
  exact hsteps.settled (hcurrent.origin path) fun name hname => Path.not_mem_of_mem_parts hname

/-- The real path of a path that leads somewhere has the same real place. -/
theorem realPlace_realPath (h : tree.LeadsTo path place)
    (hcurrent : tree.IsSettled tree.current) : tree.realPlace (tree.realPath path) = place := by
  rw [realPath, realPlace_eq_of_leadsTo h]
  exact realPlace_eq_of_leadsTo (leadsTo_ofPlace (h.isSettled hcurrent))

end BinaryStrings.FileTree

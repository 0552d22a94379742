import Splice.Proofs.Position

/-!
# The pass as simultaneous substitution

The pass walks over a tree and changes it on the way. Here it is described without a walk: the
expressions of the original tree that are keys are found first, of these the outermost ones, and at
each of them the node that resolving and building gives is spliced in. Every counter is the size of
a set of positions.
-/
namespace Splice

namespace Pass

/-! ## Matches -/

/-- An expression whose shape some key has and whose printed text is a key. -/
def isMatch (p : Pass) (n : Node) : Bool :=
  match n.place with
  | .value => p.table.mayMatch n.shape && (p.table.lookup n.render).isSome
  | .part => false

/-- The node at the position is a match. -/
def matchesAt (p : Pass) (n : Node) (q : Position) : Bool := (n.at? q).any p.isMatch

/-- The positions of all matches. -/
def matched (p : Pass) (n : Node) : Finset Position :=
  (n.positions.filter (p.matchesAt n)).toFinset

/-- The positions of the matches that lie in no other match. -/
def outermost (p : Pass) (n : Node) : Finset Position :=
  (p.matched n).filter fun q => ∀ r ∈ p.matched n, r <+: q → r = q

/-! ## What becomes of a match -/

/-- The configured value for the node at a position, resolved. -/
def resolutionAt (p : Pass) (n : Node) (q : Position) : Option Resolution :=
  (n.at? q).bind fun e => (p.table.lookup e.render).map (Replacement.resolve p.environment)

/-- The node that is built for a position. -/
def replacementAt (p : Pass) (n : Node) (q : Position) : Option Node :=
  (n.at? q).bind fun e =>
    match p.resolutionAt n q with
    | some (.resolved r) => r.build p.language e.span
    | _ => none

/-- The value at the position refers to a variable that is not set. -/
def isUnset (p : Pass) (n : Node) (q : Position) : Bool :=
  match p.resolutionAt n q with
  | some (.unset _) => true
  | _ => false

/-- The value at the position is there, but no node can be built from it. -/
def isUnreadable (p : Pass) (n : Node) (q : Position) : Bool :=
  match p.resolutionAt n q with
  | some (.resolved _) => (p.replacementAt n q).isNone
  | _ => false

/-- The new nodes of a pass, by position. -/
def newNodes (p : Pass) (n : Node) (q : Position) : Option Node :=
  if q ∈ p.outermost n then p.replacementAt n q else none

/-! ## The matches in the order of the walk -/

mutual

/-- The outermost matches, from left to right. -/
def hits (p : Pass) : Node → List Position
  | .mk form place spans cs =>
    if p.isMatch (.mk form place spans cs) then [[]] else p.hitsFrom 0 cs

def hitsFrom (p : Pass) (i : Nat) : List Node → List Position
  | [] => []
  | c :: cs => (p.hits c).map (i :: ·) ++ p.hitsFrom (i + 1) cs

end

variable (p : Pass)

theorem hitsFrom_eq (cs : List Node) (i : Nat) :
    p.hitsFrom i cs = Node.numbered p.hits i cs := by
  induction cs generalizing i with
  | nil => rfl
  | cons c cs ih => rw [hitsFrom, Node.numbered, ih]

theorem nodup_hits (n : Node) : (p.hits n).Nodup := by
  induction n using Node.induction_on with
  | step form place spans cs ih =>
    rw [hits, hitsFrom_eq]
    split
    · simp
    · exact Node.nodup_numbered p.hits cs 0 ih

/-- Below a node that is no match, the hits are those of its parts. -/
theorem cons_mem_hits {n c : Node} {i : Nat} (miss : p.isMatch n = false)
    (child : n.children[i]? = some c) {q : Position} : i :: q ∈ p.hits n ↔ q ∈ p.hits c := by
  obtain ⟨form, place, spans, cs⟩ := n
  have found : cs[i]? = some c := child
  rw [hits, hitsFrom_eq, if_neg (by simp [miss]), Node.cons_mem_numbered]
  simp [found]

/-- A hit is a match with no match above it. -/
theorem mem_hits (n : Node) (q : Position) :
    q ∈ p.hits n ↔ p.matchesAt n q ∧ ∀ r, p.matchesAt n r → r <+: q → r = q := by
  induction q generalizing n with
  | nil =>
    obtain ⟨form, place, spans, cs⟩ := n
    rw [hits, hitsFrom_eq]
    by_cases root : p.isMatch (.mk form place spans cs)
    · simp [root, matchesAt]
    · simp [root, matchesAt, Node.mem_numbered]
  | cons i q ih =>
    obtain ⟨form, place, spans, cs⟩ := n
    rw [hits, hitsFrom_eq]
    by_cases root : p.isMatch (.mk form place spans cs)
    · -- the root is a match above every other position
      have above : ¬ ∀ r, p.matchesAt (.mk form place spans cs) r → r <+: i :: q → r = i :: q := by
        intro only
        have same := only [] (by simpa [matchesAt] using root) List.nil_prefix
        simp at same
      simp [root, above]
    · rw [if_neg root, Node.cons_mem_numbered]
      cases found : cs[i]? with
      | none => simp [matchesAt, Node.children, found]
      | some c =>
        have below : ∀ r, p.matchesAt (.mk form place spans cs) (i :: r) = p.matchesAt c r := by
          intro r
          simp [matchesAt, Node.children, found]
        simp only [Option.some.injEq, exists_eq_left', ih, below]
        refine and_congr_right fun _ => ⟨?_, ?_⟩
        · intro only r hit shorter
          cases r with
          | nil => exact absurd (by simpa [matchesAt] using hit) root
          | cons j r =>
            obtain ⟨rfl, tail⟩ := List.cons_prefix_cons.mp shorter
            rw [below] at hit
            rw [only r hit tail]
        · intro only r hit shorter
          have same := only (i :: r) (by rwa [below]) (List.cons_prefix_cons.mpr ⟨rfl, shorter⟩)
          simpa using same

theorem mem_matched (n : Node) (q : Position) : q ∈ p.matched n ↔ p.matchesAt n q := by
  simp only [matched, List.mem_toFinset, List.mem_filter, Node.mem_positions, and_iff_right_iff_imp]
  intro hit
  cases found : n.at? q with
  | none => simp [matchesAt, found] at hit
  | some e => rfl

/-- The walk meets exactly the outermost matches. -/
theorem outermost_eq (n : Node) : p.outermost n = (p.hits n).toFinset := by
  ext q
  simp only [outermost, Finset.mem_filter, mem_matched, List.mem_toFinset, mem_hits]

/-! ## Counters -/

/-- What matches at the given positions add to the counters. -/
def tally (n : Node) (qs : List Position) : Stats where
  replaced := qs.countP fun q => (p.replacementAt n q).isSome
  unresolved := qs.countP (p.isUnset n)
  rejected := qs.countP (p.isUnreadable n)

@[simp] theorem tally_nil (n : Node) : p.tally n [] = {} := rfl

theorem tally_append (n : Node) (qs rs : List Position) :
    p.tally n (qs ++ rs) = p.tally n qs + p.tally n rs := by
  simp only [tally, List.countP_append]
  rfl

theorem resolutionAt_cons (n : Node) {i : Nat} {c : Node} (child : n.children[i]? = some c)
    (q : Position) : p.resolutionAt n (i :: q) = p.resolutionAt c q := by
  simp [resolutionAt, child]

theorem replacementAt_cons (n : Node) {i : Nat} {c : Node} (child : n.children[i]? = some c)
    (q : Position) : p.replacementAt n (i :: q) = p.replacementAt c q := by
  simp [replacementAt, p.resolutionAt_cons n child, child]

/-- Matches below a child count the same whether they are seen from the child or from its parent. -/
theorem tally_map_cons (n : Node) {i : Nat} {c : Node} (child : n.children[i]? = some c)
    (qs : List Position) : p.tally n (qs.map (i :: ·)) = p.tally c qs := by
  have unset : ∀ q, p.isUnset n (i :: q) = p.isUnset c q := fun q => by
    rw [isUnset, isUnset, p.resolutionAt_cons n child]
  have unreadable : ∀ q, p.isUnreadable n (i :: q) = p.isUnreadable c q := fun q => by
    rw [isUnreadable, isUnreadable, p.resolutionAt_cons n child, p.replacementAt_cons n child]
  simp only [tally, List.countP_map, Function.comp_def, p.replacementAt_cons n child, unset,
    unreadable]

/-- Every match has exactly one fate. -/
theorem tally_total (n : Node) (qs : List Position) (hits : ∀ q ∈ qs, p.matchesAt n q) :
    (p.tally n qs).replaced + (p.tally n qs).unresolved + (p.tally n qs).rejected = qs.length := by
  induction qs with
  | nil => rfl
  | cons q qs ih =>
    have rest := ih fun r member => hits r (by simp [member])
    have one : (if (p.replacementAt n q).isSome then 1 else 0) + (if p.isUnset n q then 1 else 0) +
        (if p.isUnreadable n q then 1 else 0) = 1 := by
      have hit := hits q (by simp)
      cases here : n.at? q with
      | none => simp [matchesAt, here] at hit
      | some e =>
        simp only [matchesAt, here, Option.any_some, isMatch] at hit
        split at hit
        next =>
          obtain ⟨-, found⟩ := Bool.and_eq_true_iff.mp hit
          obtain ⟨v, found⟩ := Option.isSome_iff_exists.mp found
          have resolution : p.resolutionAt n q = some (Replacement.resolve p.environment v) := by
            simp [resolutionAt, here, found]
          cases resolved : Replacement.resolve p.environment v with
          | unset name =>
            simp [isUnset, isUnreadable, replacementAt, here, resolution, resolved]
          | resolved r =>
            cases built : r.build p.language e.span <;>
              simp [isUnset, isUnreadable, replacementAt, here, resolution, resolved, built]
        · cases hit
    simp only [tally, List.countP_cons, List.length_cons] at rest ⊢
    omega

theorem tally_hitsFrom (n : Node) (i : Nat) (cs : List Node)
    (here : ∀ j, n.children[i + j]? = cs[j]?)
    (each : ∀ c ∈ cs, (p.walk c).2 = p.tally c (p.hits c)) :
    (p.walkAll cs).2 = p.tally n (p.hitsFrom i cs) := by
  induction cs generalizing i with
  | nil => rfl
  | cons c cs ih =>
    have child : n.children[i]? = some c := by simpa using here 0
    have rest := ih (i + 1) (fun j => by simpa [Nat.add_right_comm, Nat.add_assoc] using here (j + 1))
      fun d member => each d (by simp [member])
    simp only [walkAll, hitsFrom, tally_append, p.tally_map_cons n child]
    rw [each c (by simp), rest]

/-! ## The node at the root of a walk -/

/-- A match is replaced, unresolved or rejected; anything else is walked through. -/
theorem outcomeAt_of_not_match {n : Node} (miss : p.isMatch n = false) :
    p.outcomeAt n = .noMatch := by
  unfold outcomeAt
  split
  next value =>
    unfold outcome
    split
    next may =>
      split
      next v found => simp [isMatch, value, may, found] at miss
      · rfl
    · rfl
  · rfl

theorem walk_of_not_match {form : Form} {place : Place} {spans : Spans} {cs : List Node}
    (miss : p.isMatch (.mk form place spans cs) = false) :
    p.walk (.mk form place spans cs) =
      (.mk (p.afterParts form cs) place spans (p.walkAll cs).1, (p.walkAll cs).2) := by
  rw [walk, p.outcomeAt_of_not_match miss]

/-- A match becomes what its value makes of it. -/
theorem outcomeAt_of_match {n : Node} (hit : p.isMatch n = true) :
    ∃ v, p.table.lookup n.render = some v ∧ p.outcomeAt n = p.outcomeOf n v := by
  unfold isMatch at hit
  unfold outcomeAt
  cases place : n.place with
  | value =>
    simp only [place] at hit
    obtain ⟨may, found⟩ := (Bool.and_eq_true ..).mp hit
    obtain ⟨v, found⟩ := Option.isSome_iff_exists.mp found
    refine ⟨v, found, ?_⟩
    simp only [outcome, may, if_true, found]
  | part =>
    simp only [place] at hit
    cases hit

/-- At a match the walk stops: the node is the one that is built, or stays, and one counter goes
up by one. -/
theorem walk_of_match {n : Node} (hit : p.isMatch n = true) :
    p.walk n = ((p.replacementAt n []).getD n, p.tally n [[]]) ∧
      (p.outcomeAt n).isReplaced = (p.replacementAt n []).isSome := by
  obtain ⟨v, found, same⟩ := p.outcomeAt_of_match hit
  obtain ⟨form, place, spans, cs⟩ := n
  rw [walk, same, outcomeOf]
  have resolution : p.resolutionAt (.mk form place spans cs) [] =
      some (Replacement.resolve p.environment v) := by
    simp [resolutionAt, found]
  cases resolved : Replacement.resolve p.environment v with
  | unset name =>
    rw [resolved] at resolution
    simp [tally, replacementAt, isUnset, isUnreadable, resolution, Outcome.isReplaced]
  | resolved r =>
    rw [resolved] at resolution
    cases built : r.build p.language (Node.mk form place spans cs).span with
    | none =>
      simp [tally, replacementAt, isUnset, isUnreadable, resolution, Outcome.isReplaced, built]
    | some e =>
      simp [tally, replacementAt, isUnset, isUnreadable, resolution, Outcome.isReplaced, built]

theorem walk_stats (n : Node) : (p.walk n).2 = p.tally n (p.hits n) := by
  induction n using Node.induction_on with
  | step form place spans cs ih =>
    by_cases root : p.isMatch (.mk form place spans cs)
    · rw [(p.walk_of_match root).1, hits, if_pos root]
    · rw [p.walk_of_not_match (by simpa using root), hits, if_neg root]
      exact p.tally_hitsFrom _ 0 cs (fun j => by simp [Node.children]) ih

/-! ## The tree after a walk -/

theorem newNodes_eq (n : Node) (q : Position) :
    p.newNodes n q = if q ∈ p.hits n then p.replacementAt n q else none := by
  simp only [newNodes, outermost_eq, List.mem_toFinset]

theorem newNodes_root (n : Node) :
    p.newNodes n [] = if p.isMatch n then p.replacementAt n [] else none := by
  have root : [] ∈ p.hits n ↔ p.isMatch n := by simp [mem_hits, matchesAt]
  simp only [newNodes_eq, root]

theorem newNodes_root_isSome (n : Node) :
    (p.newNodes n []).isSome = (p.outcomeAt n).isReplaced := by
  rw [newNodes_root]
  by_cases hit : p.isMatch n
  · rw [if_pos hit, (p.walk_of_match hit).2]
  · rw [if_neg hit, p.outcomeAt_of_not_match (by simpa using hit)]
    rfl

/-- Nothing is put in below a match. -/
theorem newNodes_below_match {n : Node} (hit : p.isMatch n) (i : Nat) (q : Position) :
    p.newNodes n (i :: q) = none := by
  rw [newNodes_eq, if_neg]
  obtain ⟨form, place, spans, cs⟩ := n
  simp [hits, hit]

theorem newNodes_below {n : Node} (miss : p.isMatch n = false) {i : Nat} {c : Node}
    (child : n.children[i]? = some c) (q : Position) :
    p.newNodes n (i :: q) = p.newNodes c q := by
  simp only [newNodes_eq, p.cons_mem_hits miss child, p.replacementAt_cons n child]

/-- The walk and the splice agree on which shorthand properties get a key of their own. -/
theorem afterParts_eq {form : Form} {place : Place} {spans : Spans} {cs : List Node}
    (miss : p.isMatch (.mk form place spans cs) = false) :
    p.afterParts form cs = form.afterSplice cs.length (p.newNodes (.mk form place spans cs)) := by
  have parts : ((cs.drop 1).any fun v => (p.outcomeAt v).isReplaced) =
      (List.range cs.length).any fun i =>
        i != 0 && (p.newNodes (.mk form place spans cs) [i]).isSome := by
    have part : ∀ i c, cs[i]? = some c →
        (p.newNodes (.mk form place spans cs) [i]).isSome = (p.outcomeAt c).isReplaced := by
      intro i c child
      rw [p.newNodes_below miss child, newNodes_root_isSome]
    rw [Bool.eq_iff_iff, List.any_eq_true, List.any_eq_true]
    constructor
    · rintro ⟨v, member, replaced⟩
      obtain ⟨i, found⟩ := List.mem_iff_getElem?.mp member
      rw [List.getElem?_drop] at found
      refine ⟨1 + i, ?_, ?_⟩
      · exact List.mem_range.mpr (List.getElem?_eq_some_iff.mp found).1
      · simp [part _ _ found, replaced]
    · rintro ⟨i, inside, replaced⟩
      have found := List.getElem?_eq_getElem (List.mem_range.mp inside)
      simp only [part _ _ found, Bool.and_eq_true, bne_iff_ne, ne_eq] at replaced
      refine ⟨_, List.mem_iff_getElem?.mpr ⟨i - 1, ?_⟩, replaced.2⟩
      rw [List.getElem?_drop, Nat.add_sub_cancel' (Nat.pos_of_ne_zero replaced.1)]
      exact found
  cases form <;> simp only [afterParts, Form.afterSplice, parts]

theorem walkAll_eq_spliceFrom (new : Position → Option Node) (i : Nat) (cs : List Node)
    (here : ∀ j c, cs[j]? = some c → (fun q => new ((i + j) :: q)) = p.newNodes c)
    (each : ∀ c ∈ cs, (p.walk c).1 = c.spliceAt (p.newNodes c)) :
    (p.walkAll cs).1 = Node.spliceFrom new i cs := by
  induction cs generalizing i with
  | nil => rfl
  | cons c cs ih =>
    have rest := ih (i + 1)
      (fun j d found => by
        simpa [Nat.add_right_comm, Nat.add_assoc] using here (j + 1) d (by simpa using found))
      fun d member => each d (by simp [member])
    simp only [walkAll, Node.spliceFrom]
    rw [each c (by simp), rest, show (fun q => new (i :: q)) = p.newNodes c from here 0 c rfl]

theorem walk_tree (n : Node) : (p.walk n).1 = n.spliceAt (p.newNodes n) := by
  induction n using Node.induction_on with
  | step form place spans cs ih =>
    by_cases root : p.isMatch (.mk form place spans cs)
    · rw [(p.walk_of_match root).1]
      cases built : p.replacementAt (.mk form place spans cs) [] with
      | some e => simp [Node.spliceAt, newNodes_root, root, built]
      | none =>
        have nothing : p.newNodes (.mk form place spans cs) = fun _ => none := by
          funext q
          cases q with
          | nil => simp [newNodes_root, built]
          | cons i q => exact p.newNodes_below_match root i q
        simp [nothing]
    · have miss : p.isMatch (.mk form place spans cs) = false := by simpa using root
      have children := p.walkAll_eq_spliceFrom (p.newNodes (.mk form place spans cs)) 0 cs
        (fun j c found => by
          funext q
          rw [Nat.zero_add]
          exact p.newNodes_below miss found q) ih
      rw [p.walk_of_not_match miss, Node.spliceAt, p.newNodes_root, if_neg root,
        p.afterParts_eq miss, children]

/-! ## Runs -/

/-- An empty table is only a shorter way. -/
theorem run_eq_walk (n : Node) : p.run n = p.walk n := by
  unfold run
  split
  next empty =>
    have no_match : ∀ m, p.isMatch m = false := by
      intro m
      have nothing : p.table.entries.toList = [] := by
        simpa [Table.isEmpty, Entries.isEmpty] using empty
      unfold isMatch
      split <;> simp [Table.lookup, Entries.get?, nothing]
    have no_hits : p.hits n = [] := by
      refine List.eq_nil_iff_forall_not_mem.mpr fun q hit => ?_
      have found := ((p.mem_hits n q).mp hit).1
      cases here : n.at? q with
      | none => simp [matchesAt, here] at found
      | some e => simp [matchesAt, here, no_match] at found
    have no_nodes : p.newNodes n = fun _ => none := by
      funext q
      simp [newNodes_eq, no_hits]
    refine Prod.ext ?_ ?_
    · rw [walk_tree, no_nodes, Node.spliceAt_none]
    · rw [walk_stats, no_hits, tally_nil]
  · rfl

theorem card_outermost (n : Node) (P : Position → Bool) :
    ((p.outermost n).filter fun q => P q).card = (p.hits n).countP P := by
  rw [outermost_eq, ← List.toFinset_filter, List.toFinset_card_of_nodup, List.countP_eq_length_filter]
  exact (p.nodup_hits n).filter _

/-- A pass is simultaneous substitution on the original tree at the outermost matches, and each
counter is the number of outermost matches with that fate. -/
theorem run_eq_simultaneous_splice (program : Node) :
    (p.run program).1 = program.spliceAt (fun q =>
      if q ∈ p.outermost program then p.replacementAt program q else none) ∧
    (p.run program).2.replaced =
      ((p.outermost program).filter fun q => (p.replacementAt program q).isSome).card ∧
    (p.run program).2.unresolved = ((p.outermost program).filter fun q => p.isUnset program q).card ∧
    (p.run program).2.rejected =
      ((p.outermost program).filter fun q => p.isUnreadable program q).card ∧
    (p.run program).2.replaced + (p.run program).2.unresolved + (p.run program).2.rejected =
      (p.outermost program).card := by
  have counters : (p.run program).2 = p.tally program (p.hits program) := by
    rw [run_eq_walk, walk_stats]
  refine ⟨?_, ?_, ?_, ?_, ?_⟩
  · rw [run_eq_walk, walk_tree]
    rfl
  · rw [counters, card_outermost]
    rfl
  · rw [counters, card_outermost]
    rfl
  · rw [counters, card_outermost]
    rfl
  · rw [counters, outermost_eq, List.toFinset_card_of_nodup (p.nodup_hits program)]
    exact p.tally_total program (p.hits program) fun q hit => ((p.mem_hits program q).mp hit).1

end Pass

end Splice
